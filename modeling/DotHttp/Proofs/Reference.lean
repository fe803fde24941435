import DotHttp.Proofs.Placeholder.Template
import DotHttp.Proofs.Reference.Grammar
import DotHttp.Proofs.Store.Latest

/-!
The names that references read. A reference is cut at its points and a placeholder ends at the first closing
braces, so a name that has either is not read back from the reference that is made of it.
-/

namespace DotHttp

open DotHttp.Text

namespace Placeholder

variable {name s t inner rest : List Char}

/-- The braces that close a placeholder are the first ones behind its first character. -/
theorem unclosed_of_untilClose (h : untilClose s = some (inner, rest)) : ¬ ['}', '}'] <:+: inner := by
  fun_induction untilClose s generalizing inner rest with
  | case1 => cases h
  | case2 r =>
    cases h
    simp
  | case3 => cases h
  | case4 c r apart hc ih =>
    simp only [Option.map_eq_some_iff, Prod.exists, Prod.mk.injEq] at h
    obtain ⟨inner', left, found, rfl, rfl⟩ := h
    rw [List.infix_cons_iff]
    rintro (⟨more, start⟩ | within)
    · obtain ⟨rfl, rfl⟩ : '}' = c ∧ '}' :: more = inner' := by simpa using start
      exact apart _ rfl (written_of_untilClose found).symm
    · exact ih found within

theorem unclosed_of_mem_segments (h : .placeholder inner ∈ segments s) :
    ¬ ['}', '}'] <:+: inner.tail := by
  fun_induction segments s with
  | case1 => cases h
  | case2 c r inner' rest found ih =>
    rcases List.mem_cons.1 h with here | later
    · cases here
      obtain ⟨d, inner'', s', -, -, closed, rfl⟩ := opening?_eq_some_iff.1 found
      exact unclosed_of_untilClose closed
    · exact ih later
  | case3 c r _ ih =>
    rcases List.mem_cons.1 h with here | later
    · cases here
    · exact ih later

/-- Closing braces are found behind a text that has none, if a text without any braces is between. -/
theorem untilClose_of_unclosed {between : List Char} (hn : '\n' ∉ name)
    (unclosed : ¬ ['}', '}'] <:+: name) (nonempty : between ≠ [])
    (clean : ∀ c ∈ between, c ≠ '}' ∧ c ≠ '\n') (t : List Char) :
    untilClose (name ++ between ++ '}' :: '}' :: t) = some (name ++ between, t) := by
  induction name with
  | nil => exact untilClose_of_clean clean t
  | cons c name ih =>
    obtain ⟨hc, later⟩ := List.ne_and_not_mem_of_not_mem_cons hn
    -- What follows a closing brace in the name is none, neither in the name nor behind it.
    have apart : ∀ r, c = '}' → name ++ between ++ '}' :: '}' :: t = '}' :: r → False := by
      rintro r rfl next
      cases name with
      | nil =>
        obtain ⟨d, between, rfl⟩ := List.exists_cons_of_ne_nil nonempty
        cases next
        exact (clean '}' List.mem_cons_self).1 rfl
      | cons d name =>
        cases next
        exact unclosed ⟨[], name, rfl⟩
    rw [List.cons_append, List.cons_append, untilClose.eq_3 _ _ apart, if_neg (Ne.symm hc),
      ih later fun h => unclosed (List.infix_cons h)]
    rfl

/-- A text behind which a scan begins afresh. -/
def Ended (s : List Char) : Prop :=
  ∀ t, segments (s ++ t) = segments s ++ segments t

theorem ended_of_literal (unopened : ¬ ['{', '{'] <:+: s) (apart : s.getLast? ≠ some '{') :
    Ended s := by
  intro t
  have alone := segments_literal (t := []) unopened fun last => (apart last).elim
  rw [List.append_nil, segments, List.append_nil] at alone
  rw [alone, segments_literal unopened fun last => (apart last).elim]

end Placeholder

namespace Reference

open DotHttp.Placeholder

/-- The inside of a placeholder for the whole body of the answer to the request with a name. -/
def toBody (name : String) : List Char :=
  name.toList ++ ".response.body.*".toList

def bodyPlaceholder (name : String) : String :=
  String.ofList (written (toBody name))

/-- A name that no point and no closing braces cut. -/
structure Whole (name : String) : Prop where
  undotted : '.' ∉ name.toList
  unclosed : ¬ ['}', '}'] <:+: name.toList.tail

variable {text name : String} {inner s : List Char} {ref : Reference}

theorem tail_within_tail {s t : List Char} (h : s <:+: t) : s.tail <:+: t.tail := by
  obtain ⟨before, after, rfl⟩ := h
  cases s with
  | nil => exact List.nil_infix
  | cons c s =>
    cases before with
    | nil => exact ⟨[], after, rfl⟩
    | cons d before => exact ⟨before ++ [c], after, by simp⟩

/-- The name that a reference reads is the text up to its first point. -/
theorem requestName_of_parse? (h : parse? text = some ref) :
    ∃ rest, strip (unbraced text.toList) = ref.requestName.toList ++ '.' :: rest ∧
      '.' ∉ ref.requestName.toList := by
  obtain ⟨-, dotted⟩ := parse?_eq_some_iff.1 h
  have joined := dotted.joined
  rw [joinWith.eq_3 _ _ _ (by simp), List.append_assoc, List.singleton_append] at joined
  exact ⟨_, joined, dotted.undotted⟩

/-- Whatever a placeholder in whatever text names is whole. -/
theorem whole_of_mem_segments (h : .placeholder inner ∈ segments s)
    (reads : parse? (String.ofList inner) = some ref) : Whole ref.requestName := by
  have unclosed := unclosed_of_mem_segments h
  obtain ⟨rest, read, undotted⟩ := requestName_of_parse? reads
  have plain : unbraced inner = inner := by
    apply unbraced_of_unclosed
    rintro t rfl
    exact unclosed ⟨'{' :: t, [], by simp⟩
  rw [String.toList_ofList, plain] at read
  obtain ⟨before, after, parts, -⟩ := exists_strip inner
  have within : ref.requestName.toList <:+: inner :=
    ⟨before, '.' :: rest ++ after, by rw [parts, read]; simp⟩
  exact ⟨undotted, fun closes => unclosed (closes.trans (tail_within_tail within))⟩

theorem strip_toBody (nonempty : name.toList ≠ []) (stripped : strip name.toList = name.toList) :
    strip (toBody name) = toBody name := by
  obtain ⟨c, more, split⟩ := List.exists_cons_of_ne_nil nonempty
  rw [split] at stripped
  rw [toBody, split]
  exact strip_cons_append (isBlank_of_strip_cons stripped) more (by decide +kernel)
    (by decide +kernel)

theorem parse?_toBody (undotted : '.' ∉ name.toList) (nonempty : name.toList ≠ [])
    (stripped : strip name.toList = name.toList) :
    parse? (String.ofList (toBody name)) =
      some ⟨String.ofList (toBody name), name, .response, .body, "*"⟩ := by
  have last : (toBody name).getLast? = some '*' := by
    rw [toBody, List.getLast?_append]
    rfl
  have plain : unbraced (toBody name) = toBody name := by
    apply unbraced_of_unclosed
    intro t same
    rw [same, List.getLast?_append] at last
    cases last
  have bare : strip (unbraced (String.ofList (toBody name)).toList) = toBody name := by
    rw [String.toList_ofList, plain, strip_toBody nonempty stripped]
  rw [parse?_eq_some_iff, bare]
  refine ⟨rfl, ?_, undotted, .inr rfl, .inl rfl, ?_⟩
  · rintro rfl
    exact nonempty rfl
  · simp [toBody, joinWith, Side.word, Part.word]

/-- A placeholder ends where it is meant to if no closing braces are in the name behind its first
character. -/
theorem opening?_toBody (unclosed : ¬ ['}', '}'] <:+: name.toList.tail) (nonempty : name.toList ≠ [])
    (hn : '\n' ∉ name.toList) (t : List Char) :
    opening? (written (toBody name) ++ t) = some (toBody name, t) := by
  obtain ⟨c, more, split⟩ := List.exists_cons_of_ne_nil nonempty
  rw [split] at unclosed hn
  obtain ⟨hc, later⟩ := List.ne_and_not_mem_of_not_mem_cons hn
  have clean : ∀ c ∈ ".response.body.*".toList, c ≠ '}' ∧ c ≠ '\n' := by simp
  have closes := untilClose_of_unclosed later unclosed (by decide +kernel) clean t
  refine opening?_eq_some_iff.2 ⟨c, more ++ ".response.body.*".toList, _, ?_, Ne.symm hc, closes, ?_⟩
  · simp [written, toBody, split]
  · rw [toBody, split, List.cons_append]

theorem segments_bodyPlaceholder {before : String} (ended : Ended before.toList)
    (unclosed : ¬ ['}', '}'] <:+: name.toList.tail) (nonempty : name.toList ≠ [])
    (hn : '\n' ∉ name.toList) (after : String) :
    segments (before ++ bodyPlaceholder name ++ after).toList =
      segments before.toList ++ .placeholder (toBody name) :: segments after.toList := by
  rw [String.toList_append, String.toList_append, List.append_assoc, ended, bodyPlaceholder,
    String.toList_ofList, segments_of_opening (opening?_toBody unclosed nonempty hn _)]

end Reference

namespace Resolution

open DotHttp.Placeholder DotHttp.Reference

variable {name : String} {store : Store}

/-- The placeholder for an answer's body gives the body, and what is around it comes to what it comes to by
itself. -/
theorem filled_bodyPlaceholder {before : String} (ended : Ended before.toList) (whole : Whole name)
    (nonempty : name.toList ≠ []) (hn : '\n' ∉ name.toList)
    (stripped : Text.strip name.toList = name.toList) (after : String) {x : Context} {o : Outcome}
    {b : String} (latest : store.Latest name x) (answered : x.outcome = some o)
    (body : o.body = some b) :
    filled store (before ++ bodyPlaceholder name ++ after) = (do
      let s ← filled store before
      let t ← filled store after
      pure (s ++ b ++ t)) := by
  have reads := parse?_toBody whole.undotted nonempty stripped
  have value : Reference.value? ⟨String.ofList (toBody name), name, .response, .body, "*"⟩ store =
      some b := by
    simp [value?, Store.get?_eq_some_iff.2 latest, answered, bodyValue?, body]
  have here : filledPart store (.placeholder (toBody name)) = .ok b.toList := by
    simp only [filledPart, reads, value]
  rw [filled, segments_bodyPlaceholder ended whole.unclosed nonempty hn, filledParts_append,
    filledParts, here, filled, filled]
  cases filledParts store (segments before.toList) with
  | error e => rfl
  | ok s =>
    cases filledParts store (segments after.toList) with
    | error e => rfl
    | ok t => simp [bind, Except.bind, pure, Except.pure, Except.map, String.ofList_append, String.append_assoc]

/-- A store that holds one answer, to a request with a name. -/
def oneAnswer (name : String) (status : Int) (body : String) : Store :=
  ⟨[⟨name, ⟨"GET", "", none, [], none, [], [], none, none, none, none, none⟩,
    some ⟨status, true, 0, none, none, none, some body, []⟩⟩]⟩

theorem latest_oneAnswer (name : String) (status : Int) (body : String) :
    ∃ x o, (oneAnswer name status body).Latest name x ∧ x.outcome = some o ∧ o.status = status ∧
      o.body = some body :=
  ⟨_, _, ⟨rfl, [], [], rfl, List.forall_mem_nil _⟩, rfl, rfl, rfl⟩

theorem get?_oneAnswer {name other : String} (h : other ≠ name) (status : Int) (body : String) :
    (oneAnswer name status body).get? other = none :=
  Store.get?_eq_none_iff.2 (List.forall_mem_singleton.2 (Ne.symm h))

/-- No text tells two answers apart by a placeholder, if their name is not whole. -/
theorem filled_oneAnswer (cut : ¬ Whole name) (status : Int) (body body' text : String) :
    filled (oneAnswer name status body) text = filled (oneAnswer name status body') text := by
  refine congrArg _ (filledParts_congr ?_)
  intro part hp
  cases part with
  | char c => rfl
  | placeholder inner =>
    cases reads : parse? (String.ofList inner) with
    | none => simp only [filledPart, reads]
    | some ref =>
      have other : ref.requestName ≠ name := by
        rintro rfl
        exact cut (whole_of_mem_segments hp reads)
      simp only [filledPart, reads, value?, get?_oneAnswer other]

end Resolution

end DotHttp
