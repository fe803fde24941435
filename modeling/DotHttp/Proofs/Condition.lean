import DotHttp.Condition
import DotHttp.Proofs.Text.Blank

/-!
Conditions as they are written: the part of an answer that a condition names, a blank, and what is
expected of it. Reading that gives the condition back.
-/

namespace DotHttp.Condition

open DotHttp.Text

variable {text : String} {negated : Bool} {c : Condition}

/-- The words that a condition was read from: its description, and those of the expected value. -/
theorem words_of_parse? (h : parse? text negated = some c) :
    ∃ ws, words text.toList = c.describe.toList :: ws ∧ ws ≠ [] ∧
      c.expected.toList = joinWith [' '] ws ∧ c.negated = negated := by
  unfold parse? at h
  split at h
  · next reference word more hw =>
    -- The pieces of the reference are those of the description.
    have whole := joinWith_splitOn '.' reference
    have described : c.describe.toList = reference → ∃ ws,
        words text.toList = c.describe.toList :: ws ∧ ws ≠ [] ∧
          joinWith [' '] (word :: more) = joinWith [' '] ws :=
      fun hd => ⟨word :: more, hd ▸ hw, by simp, rfl⟩
    dsimp only at h
    split at h
    · next name side part path hs =>
      rw [hs] at whole
      split at h
      · cases h
      · next hside =>
        obtain ⟨-, rfl⟩ : ¬ name = [] ∧ side = "response".toList := by simpa using hside
        split at h
        · next hpart =>
          obtain ⟨rfl, rfl⟩ : path = [] ∧ part = "status".toList := by simpa using hpart
          cases h
          obtain ⟨ws, hws, nonempty, joined⟩ :=
            described (by simpa [describe, joinWith] using whole)
          exact ⟨ws, hws, nonempty, by simpa using joined, rfl⟩
        · split at h
          · next hpart =>
            obtain ⟨hpath, rfl⟩ : ¬ path = [] ∧ part = "body".toList := by simpa using hpart
            cases h
            have pieces : joinWith ['.'] (name :: "response".toList :: "body".toList :: path) =
                name ++ ".response.body.".toList ++ joinWith ['.'] path := by
              cases path with
              | nil => exact (hpath rfl).elim
              | cons p ps => simp [joinWith]
            rw [pieces] at whole
            obtain ⟨ws, hws, nonempty, joined⟩ := described (by simpa [describe] using whole)
            exact ⟨ws, hws, nonempty, by simpa using joined, rfl⟩
          · cases h
    · cases h
  · cases h

theorem parse?_congr {text' : String} (h : words text.toList = words text'.toList) :
    parse? text negated = parse? text' negated := by
  simp only [parse?, h]

theorem words_printed {ws : List (List Char)} (description : Compact c.describe.toList)
    (compact : ∀ w ∈ ws, Compact w) (joined : c.expected.toList = joinWith [' '] ws) :
    words (c.describe ++ " " ++ c.expected).toList = c.describe.toList :: ws := by
  have written : (c.describe ++ " " ++ c.expected).toList =
      c.describe.toList ++ ' ' :: joinWith [' '] ws := by simp [joined]
  rw [written, words_append_space description, words_joinWith compact]

/-- What a condition prints has the words that it was read from. -/
theorem words_of_print (h : parse? text negated = some c) :
    words (c.describe ++ " " ++ c.expected).toList = words text.toList := by
  obtain ⟨ws, hw, -, joined, -⟩ := words_of_parse? h
  have compact : ∀ w ∈ words text.toList, Compact w := fun w => compact_of_mem_words
  rw [hw] at compact
  obtain ⟨description, rest⟩ := List.forall_mem_cons.1 compact
  rw [hw, words_printed description rest joined]

/-- A condition that was read once reads as itself from its description and expected value. -/
theorem parse?_describe (h : parse? text negated = some c) :
    parse? (c.describe ++ " " ++ c.expected) negated = some c := by
  rw [← h]
  exact parse?_congr (words_of_print h)

/-- A condition on the status, read from its words. -/
theorem parse?_status {name : List Char} {ws : List (List Char)} (nonempty : name ≠ [])
    (undotted : '.' ∉ name) (expected : ws ≠ [])
    (hw : words text.toList = (name ++ ".response.status".toList) :: ws) :
    parse? text negated =
      some ⟨String.ofList name, .status, String.ofList (joinWith [' '] ws), negated, none⟩ := by
  obtain ⟨word, more, rfl⟩ := List.exists_cons_of_ne_nil expected
  have pieces : splitOn '.' (name ++ ".response.status".toList) =
      [name, "response".toList, "status".toList] := by
    have rest : splitOn '.' "response.status".toList = ["response".toList, "status".toList] := by
      decide +kernel
    have dotted : ".response.status".toList = '.' :: "response.status".toList := by decide +kernel
    rw [dotted, splitOn_append, splitOn_of_not_mem undotted, rest]
    rfl
  unfold parse?
  rw [hw]
  simp only [pieces]
  rw [if_neg (by simp [nonempty]), if_pos (by simp)]

/-- A condition on a value in the body, read from its words. -/
theorem parse?_bodyPath {name path : List Char} {ws : List (List Char)} (nonempty : name ≠ [])
    (undotted : '.' ∉ name) (expected : ws ≠ [])
    (hw : words text.toList = (name ++ ".response.body.".toList ++ path) :: ws) :
    parse? text negated = some ⟨String.ofList name, .bodyPath, String.ofList (joinWith [' '] ws),
      negated, some (String.ofList path)⟩ := by
  obtain ⟨word, more, rfl⟩ := List.exists_cons_of_ne_nil expected
  have pieces : splitOn '.' (name ++ ".response.body.".toList ++ path) =
      name :: "response".toList :: "body".toList :: splitOn '.' path := by
    have rest : splitOn '.' "response.body".toList = ["response".toList, "body".toList] := by
      decide +kernel
    have dotted : ".response.body.".toList = '.' :: ("response.body".toList ++ ['.']) := by
      decide +kernel
    rw [dotted, List.append_assoc, List.cons_append, List.append_assoc, List.singleton_append,
      splitOn_append, splitOn_append, splitOn_of_not_mem undotted, rest]
    rfl
  have whole := joinWith_splitOn '.' path
  obtain ⟨first, rest, parts⟩ := List.exists_cons_of_ne_nil (splitOn_ne_nil '.' path)
  rw [parts] at whole pieces
  unfold parse?
  rw [hw]
  simp only [pieces]
  rw [if_neg (by simp [nonempty]), if_neg (by simp), if_pos (by simp), whole]

/-- A condition that is read names a request, and has a path just if it is on the body. -/
theorem form_of_parse? (h : parse? text negated = some c) : c.requestName.toList ≠ [] ∧
    ((c.kind = .status ∧ c.path = none) ∨ ∃ p, c.kind = .bodyPath ∧ c.path = some p) := by
  unfold parse? at h
  split at h
  · dsimp only at h
    split at h
    · next name side part path pieces =>
      split at h
      · cases h
      · next named =>
        have nonempty : (String.ofList name).toList ≠ [] := by
          intro empty
          rw [String.toList_ofList] at empty
          simp [empty] at named
        split at h
        · cases h
          exact ⟨nonempty, .inl ⟨rfl, rfl⟩⟩
        · split at h
          · cases h
            exact ⟨nonempty, .inr ⟨_, rfl, rfl⟩⟩
          · cases h
    · cases h
  · cases h

theorem undotted_of_parse? (h : parse? text negated = some c) : '.' ∉ c.requestName.toList := by
  unfold parse? at h
  split at h
  · next reference word more hw =>
    dsimp only at h
    split at h
    · next name side part path pieces =>
      have undotted : '.' ∉ name := not_mem_of_mem_splitOn (pieces ▸ List.mem_cons_self)
      split at h
      · cases h
      · split at h
        · cases h
          simpa using undotted
        · split at h <;> cases h
          simpa using undotted
    · cases h
  · cases h

/-- The request that a condition names stands before the first point of its text. -/
theorem requestName_of_parse? (h : parse? text negated = some c) :
    ∃ first ws rest, words text.toList = first :: ws ∧
      splitFirst '.' first = some (c.requestName.toList, rest) := by
  obtain ⟨ws, hw, -⟩ := words_of_parse? h
  obtain ⟨rest, described⟩ : ∃ rest, c.describe.toList = c.requestName.toList ++ '.' :: rest := by
    unfold describe
    cases c.kind <;> exact ⟨_, by simp; rfl⟩
  refine ⟨_, ws, rest, hw, ?_⟩
  rw [described]
  exact splitFirst_append (undotted_of_parse? h) rest

/-- A condition that a line can hold: its description is one word, and what it expects are words with one
blank between any two of them. -/
structure Writable (c : Condition) : Prop where
  named : Compact c.requestName.toList
  undotted : '.' ∉ c.requestName.toList
  part : (c.kind = .status ∧ c.path = none) ∨
    ∃ p, c.kind = .bodyPath ∧ c.path = some p ∧ ∀ d ∈ p.toList, isBlank d = false
  worded : ∃ ws, ws ≠ [] ∧ (∀ w ∈ ws, Compact w) ∧ c.expected.toList = joinWith [' '] ws

theorem writable_of_parse? (h : parse? text negated = some c) : c.Writable := by
  obtain ⟨ws, hw, nonempty, joined, -⟩ := words_of_parse? h
  have compact : ∀ w ∈ words text.toList, Compact w := fun w => compact_of_mem_words
  rw [hw] at compact
  obtain ⟨description, rest⟩ := List.forall_mem_cons.1 compact
  obtain ⟨named, part⟩ := form_of_parse? h
  obtain ⟨more, described⟩ : ∃ more, c.describe.toList = c.requestName.toList ++ more := by
    unfold describe
    cases c.kind <;> exact ⟨_, by simp; rfl⟩
  have solid : ∀ d ∈ c.requestName.toList, isBlank d = false := by
    intro d hd
    apply description.solid
    rw [described]
    exact List.mem_append_left _ hd
  refine ⟨⟨named, solid⟩, undotted_of_parse? h, ?_, ws, nonempty, rest, joined⟩
  rcases part with status | ⟨p, kind, path⟩
  · exact .inl status
  · refine .inr ⟨p, kind, path, ?_⟩
    intro d hd
    apply description.solid
    rw [describe, kind, path, Option.getD_some, String.toList_append]
    exact List.mem_append_right _ hd

theorem Writable.compact_describe (h : c.Writable) : Compact c.describe.toList := by
  refine ⟨?_, ?_⟩
  · unfold describe
    cases c.kind <;> simp [h.named.nonempty]
  · rcases h.part with ⟨kind, -⟩ | ⟨p, kind, path, solid⟩
    · have fixed : Compact ".response.status".toList := by decide +kernel
      rw [describe, kind, String.toList_append]
      exact List.forall_mem_append.2 ⟨h.named.solid, fixed.solid⟩
    · have fixed : Compact ".response.body.".toList := by decide +kernel
      rw [describe, kind, path, Option.getD_some, String.toList_append, String.toList_append]
      exact List.forall_mem_append.2
        ⟨List.forall_mem_append.2 ⟨h.named.solid, fixed.solid⟩, solid⟩

/-- A text with the words that a condition is written with reads as this condition. -/
theorem Writable.parse?_of_words (h : c.Writable)
    (same : words text.toList = words (c.describe ++ " " ++ c.expected).toList) :
    parse? text c.negated = some c := by
  obtain ⟨ws, nonempty, compact, joined⟩ := h.worded
  have hw : words text.toList = c.describe.toList :: ws := by
    rw [same, words_printed h.compact_describe compact joined]
  obtain ⟨named, undotted, part, -⟩ := h
  obtain ⟨requestName, kind, expected, negated, path⟩ := c
  obtain rfl : expected = String.ofList (joinWith [' '] ws) := by
    rw [← joined, String.ofList_toList]
  rcases part with ⟨rfl, rfl⟩ | ⟨p, rfl, rfl, -⟩
  · rw [describe, String.toList_append] at hw
    rw [parse?_status named.nonempty undotted nonempty hw, String.ofList_toList]
  · rw [describe, Option.getD_some, String.toList_append, String.toList_append] at hw
    rw [parse?_bodyPath named.nonempty undotted nonempty hw, String.ofList_toList,
      String.ofList_toList]

/-- The texts that read as a condition are those with the words of its description and of what it expects,
if it can be written at all. -/
theorem parse?_eq_some_iff : parse? text negated = some c ↔
    c.Writable ∧ c.negated = negated ∧
      words text.toList = words (c.describe ++ " " ++ c.expected).toList := by
  constructor
  · intro h
    obtain ⟨-, -, -, -, same⟩ := words_of_parse? h
    exact ⟨writable_of_parse? h, same, (words_of_print h).symm⟩
  · rintro ⟨writable, rfl, same⟩
    exact writable.parse?_of_words same

/-- The conditions that are read are those that can be written, and each is read from what it prints: its
description, a blank, and what it expects. Other texts of it differ from this one in their white space only. -/
theorem parse?_reprinted (c : Condition) (negated : Bool) :
    ((∃ text, parse? text negated = some c) ↔ c.Writable ∧ c.negated = negated) ∧
    ∀ text, parse? text negated = some c →
      parse? (c.describe ++ " " ++ c.expected) negated = some c ∧
      words text.toList = words (c.describe ++ " " ++ c.expected).toList ∧
      c.requestName ≠ "" ∧ ∀ d ∈ c.requestName.toList, d ≠ '.' ∧ isBlank d = false := by
  constructor
  · constructor
    · rintro ⟨text, read⟩
      obtain ⟨writable, same, -⟩ := parse?_eq_some_iff.1 read
      exact ⟨writable, same⟩
    · rintro ⟨writable, same⟩
      exact ⟨_, parse?_eq_some_iff.2 ⟨writable, same, rfl⟩⟩
  · intro text read
    obtain ⟨writable, -, same⟩ := parse?_eq_some_iff.1 read
    refine ⟨parse?_describe read, same, ?_, ?_⟩
    · rintro empty
      exact writable.named.nonempty (by rw [empty]; rfl)
    · intro d hd
      exact ⟨fun dot => writable.undotted (dot ▸ hd), writable.named.solid d hd⟩

/-- A condition read from a text with white space of several kinds. -/
theorem parse?_reprinted_spaced :
    let c : Condition := ⟨"a", .bodyPath, "1 2", true, some "$.x.y"⟩
    parse? "\ta.response.body.$.x.y  1\u2003 2\n" true = some c ∧
    c.describe ++ " " ++ c.expected = "a.response.body.$.x.y 1 2" ∧
    parse? (c.describe ++ " " ++ c.expected) true = some c := by
  intro c
  have read : parse? "\ta.response.body.$.x.y  1\u2003 2\n" true = some c := by decide +kernel
  obtain ⟨-, reread⟩ := parse?_reprinted c true
  exact ⟨read, by decide +kernel, (reread _ read).1⟩

end DotHttp.Condition
