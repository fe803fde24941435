import DotHttp.Proofs.RequestFile.Reading
import Mathlib.Data.List.Induction

/-!
Script blocks. Whether a line stands in one is told by the lines before it: one of them opens a block
and none from there on closes it.
-/

namespace DotHttp.RequestFile

open DotHttp.Text

/-- After some lines a script block is open. -/
def InScript (ls : List (List Char)) : Prop :=
  ∃ before opening inside, ls = before ++ opening :: inside ∧
    opensScript (strip opening) = true ∧
    ∀ raw ∈ opening :: inside, closesScript (strip raw) = false

/-- A line that opens a script block or stands in one. -/
def ScriptLine (before : List (List Char)) (raw : List Char) : Prop :=
  opensScript (strip raw) = true ∨ InScript before

theorem not_inScript_nil : ¬ InScript [] := by
  rintro ⟨before, opening, inside, split, -⟩
  simp at split

theorem not_scriptLine {before : List (List Char)} {raw : List Char}
    (closed : ∀ x ∈ before ++ [raw], opensScript (strip x) = false) : ¬ ScriptLine before raw := by
  rintro (opens | ⟨start, opening, inside, rfl, opens, -⟩)
  · rw [closed raw (by simp)] at opens
    cases opens
  · rw [closed opening (by simp)] at opens
    cases opens

theorem inScript_concat (ls : List (List Char)) (raw : List Char) :
    InScript (ls ++ [raw]) ↔ ScriptLine ls raw ∧ closesScript (strip raw) = false := by
  constructor
  · rintro ⟨before, opening, inside, split, opens, unclosed⟩
    rcases List.eq_nil_or_concat inside with rfl | ⟨inside, last, rfl⟩
    · obtain ⟨-, same⟩ := List.append_inj' split rfl
      cases same
      exact ⟨.inl opens, unclosed _ List.mem_cons_self⟩
    · rw [List.concat_eq_append, ← List.cons_append, ← List.append_assoc] at split
      obtain ⟨rfl, same⟩ := List.append_inj' split rfl
      cases same
      rw [List.concat_eq_append, ← List.cons_append, List.forall_mem_append] at unclosed
      exact ⟨.inr ⟨before, opening, inside, rfl, opens, unclosed.1⟩,
        unclosed.2 _ List.mem_cons_self⟩
  · rintro ⟨opens | ⟨before, opening, inside, rfl, opens, unclosed⟩, open_⟩
    · exact ⟨ls, raw, [], rfl, opens, List.forall_mem_singleton.2 open_⟩
    · refine ⟨before, opening, inside ++ [raw], by simp, opens, ?_⟩
      rw [← List.cons_append]
      exact List.forall_mem_append.2 ⟨unclosed, List.forall_mem_singleton.2 open_⟩

namespace State

variable {s s' : State} {line : Nat} {raw : List Char}

/-- Only the lines of a script block open and close it. -/
theorem heed_inScript {kind : Line} (h : s.heed line raw kind = .ok s') :
    s'.inScript = s.inScript := by
  cases kind with
  | blank =>
    cases h
    exact (skipLine_outside s).2.2
  | comment | ignored =>
    cases h
    rfl
  | directive keyword word value =>
    obtain ⟨p, rfl, -⟩ := direct_pending h
    rfl
  | unknownDirective word => cases h
  | definition name value =>
    cases h
    rfl
  | assertion kind word expected =>
    simp only [heed, addAssertion] at h
    split at h
    · cases h
    · cases h
      rfl
  | request text =>
    obtain ⟨r, names, notes, rfl, -⟩ := beginRequest_current h
    exact finish_inScript s
  | content text =>
    simp only [heed, addContent] at h
    split at h
    · cases h
    · split at h <;> cases h <;> rfl

theorem readLine_inScript (h : s.readLine line raw = .ok s') :
    s'.inScript = ((opensScript (strip raw) || s.inScript) && !closesScript (strip raw)) := by
  rw [readLine_eq] at h
  split at h
  · next hs =>
    cases h
    rw [hs, Bool.true_and]
  · next hs =>
    rw [heed_inScript h]
    simp only [Bool.or_eq_true, not_or, Bool.not_eq_true] at hs
    rw [hs.1, hs.2]
    rfl

end State

/-- Reading on past a line, seen from the state that it is read in. -/
theorem readLines_through {line : Nat} {s s' : State} {before after : List (List Char)}
    {raw : List Char} (h : readLines line s (before ++ raw :: after) = .ok s') :
    ∃ s₁ s₂, readLines line s before = .ok s₁ ∧ s₁.readLine (line + before.length) raw = .ok s₂ ∧
      readLines (line + before.length + 1) s₂ after = .ok s' := by
  rw [readLines_append] at h
  cases hb : readLines line s before with
  | error e =>
    rw [hb] at h
    cases h
  | ok s₁ =>
    rw [hb] at h
    simp only [readLines] at h
    cases hr : s₁.readLine (line + before.length) raw with
    | error e =>
      rw [hr] at h
      cases h
    | ok s₂ =>
      rw [hr] at h
      exact ⟨s₁, s₂, rfl, hr, h⟩

/-- A line is read as part of a script block just where one is open. -/
theorem readLines_inScript {vars : List Variable} {ls : List (List Char)} {s : State}
    (h : readLines 1 (.start vars) ls = .ok s) : s.inScript = true ↔ InScript ls := by
  induction ls using List.reverseRecOn generalizing s with
  | nil =>
    cases h
    exact iff_of_false Bool.false_ne_true not_inScript_nil
  | append_singleton ls raw ih =>
    obtain ⟨s₁, s₂, hr, hl, hs⟩ := readLines_through h
    cases hs
    rw [State.readLine_inScript hl, inScript_concat, ScriptLine, ← ih hr]
    simp

theorem readLines_scriptLine {vars : List Variable} {ls : List (List Char)} {s : State}
    (h : readLines 1 (.start vars) ls = .ok s) (raw : List Char) :
    (opensScript (strip raw) || s.inScript) = true ↔ ScriptLine ls raw := by
  rw [Bool.or_eq_true, readLines_inScript h, ScriptLine]

end DotHttp.RequestFile
