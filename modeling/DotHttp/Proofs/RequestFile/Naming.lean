import DotHttp.Proofs.RequestFile.Attachment

/-!
The names that requests are given. A name is a text without white space around it, and the notes on a file
tell whether one was given twice.
-/

namespace DotHttp.RequestFile

open DotHttp.Text

/-- One line of text without white space around it. -/
@[mk_iff] structure Trimmed (text : List Char) : Prop where
  unbroken : Unbroken text
  nonempty : text ≠ []
  stripped : strip text = text

instance (text : List Char) : Decidable (Trimmed text) := decidable_of_iff _ (trimmed_iff text).symm

theorem IsDirective.stripped {s : List Char} {keyword : Keyword} {word value : String}
    (h : IsDirective s keyword word value) : strip value.toList = value.toList := by
  obtain ⟨-, lead, rest, -, -, -, holds⟩ := h
  rw [← holds_iff.1 holds, strip_strip]

/-- The value of a directive stands on its line. -/
theorem IsDirective.sublist {raw : List Char} {keyword : Keyword} {word value : String}
    (h : IsDirective (strip raw) keyword word value) : value.toList.Sublist raw := by
  obtain ⟨-, lead, rest, written, -, -, holds⟩ := h
  generalize value.toList = text at holds ⊢
  have within : text.Sublist rest := by
    cases holds with
    | @colon between behind blank =>
      exact ((strip_sublist behind).trans (List.sublist_cons_self ':' behind)).trans
        (List.sublist_append_right between _)
    | plain none => exact strip_sublist rest
  have whole : rest.Sublist (strip raw) := by
    rw [written]
    exact ((List.sublist_append_right word.toList rest).trans (List.sublist_cons_self '@' _)).trans
      (List.sublist_append_right lead _)
  exact (within.trans whole).trans (strip_sublist raw)

namespace State

/-- The state knows the names of the requests begun, and has noted each that came again. -/
structure Registers (s : State) : Prop where
  names : s.names = s.begun.filterMap (·.name)
  noted : s.names.Nodup ↔ ∀ name line, .duplicateName name line ∉ s.notes
  given : ∀ p ∈ s.pending :: s.begun, ∀ name ∈ p.name, Trimmed name.toList

variable {s s' : State} {line : Nat} {raw : List Char}

theorem finish_names (s : State) : s.finish.names = s.names := by
  unfold finish
  split <;> rfl

theorem finish_notes (s : State) : s.finish.notes = s.notes := by
  unfold finish
  split <;> rfl

theorem nameNotes_finish (s : State) (line : Nat) : s.finish.nameNotes line = s.nameNotes line := by
  rw [nameNotes, nameNotes, finish_pending, finish_names]

theorem skipLine_names (s : State) : s.skipLine.names = s.names ∧ s.skipLine.notes = s.notes := by
  unfold skipLine
  split
  · exact ⟨rfl, rfl⟩
  · split <;> exact ⟨rfl, rfl⟩

/-- Only a request line enters a name and notes that it is there already. -/
theorem names_of_heed (h : s.heed line raw (Line.ofText (strip raw)) = .ok s') :
    s'.names = s.names ++ (if beginsRequest raw then s.pending.name.toList else []) ∧
      s'.notes = s.notes ++ if beginsRequest raw then s.nameNotes line else [] := by
  unfold beginsRequest
  cases hk : Line.ofText (strip raw) with rw [hk] at h
  | blank =>
    cases h
    simp [skipLine_names]
  | directive keyword word value =>
    obtain ⟨p, rfl, -⟩ := directed_of_direct h
    simp
  | unknownDirective word => cases h
  | assertion kind word expected =>
    simp only [heed, addAssertion] at h
    split at h <;> cases h
    simp
  | request text =>
    simp only [heed, beginRequest] at h
    split at h <;> cases h
    simp [finish_names, finish_notes, nameNotes_finish]
  | content text =>
    simp only [heed, addContent] at h
    split at h
    · cases h
    · split at h <;> cases h <;> simp
  | definition name value =>
    cases h
    simp [define]
  | comment | ignored =>
    cases h
    simp

theorem mem_nameNotes {name : String} {line' : Nat} :
    .duplicateName name line' ∈ s.nameNotes line ↔
      s.pending.name = some name ∧ name ∈ s.names ∧ line' = line := by
  unfold nameNotes
  cases s.pending.name with
  | none => simp
  | some own =>
    by_cases known : own ∈ s.names
    · simp only [List.contains_iff_mem, known, if_true, List.mem_singleton, Note.duplicateName.injEq,
        Option.some.injEq]
      exact ⟨fun ⟨same, here⟩ => ⟨same.symm, same ▸ known, here⟩, fun ⟨same, _, here⟩ => ⟨same.symm, here⟩⟩
    · simp only [List.contains_iff_mem, known, if_false, List.not_mem_nil, Option.some.injEq,
        false_iff]
      rintro ⟨rfl, there, -⟩
      exact known there

theorem nodup_append_name (s : State) (line : Nat) :
    (s.names ++ s.pending.name.toList).Nodup ↔
      s.names.Nodup ∧ ∀ name line', .duplicateName name line' ∉ s.nameNotes line := by
  simp only [mem_nameNotes, not_and]
  cases s.pending.name with
  | none => simp
  | some own =>
    rw [Option.toList_some, List.nodup_append_comm, List.singleton_append, List.nodup_cons, and_comm]
    refine and_congr_right fun _ => ⟨?_, fun noted known => noted own line rfl known rfl⟩
    rintro fresh name line' ⟨⟩ known
    exact (fresh known).elim

theorem Registers.start (vars : List Variable) : (State.start vars).Registers where
  names := rfl
  noted := iff_of_true List.nodup_nil fun _ _ => List.not_mem_nil
  given := by simp [State.start, Pending.empty, begun]

theorem Registers.turn (h : s.Registers) (unbroken : Unbroken raw)
    (heeds : s.heed line raw (Line.ofText (strip raw)) = .ok s') : s'.Registers := by
  obtain ⟨names, notes⟩ := names_of_heed heeds
  obtain ⟨waiting, begun⟩ := List.forall_mem_cons.1 h.given
  -- A line that begins no request leaves names and notes as they are.
  have still (kind : beginsRequest raw = false) (same : s'.begun = s.begun)
      (given : ∀ name ∈ s'.pending.name, Trimmed name.toList) : s'.Registers := by
    simp only [kind, Bool.false_eq_true, if_false, List.append_nil] at names notes
    exact ⟨by rw [names, same, h.names], by rw [names, notes, h.noted],
      List.forall_mem_cons.2 ⟨given, same ▸ begun⟩⟩
  obtain ⟨-, turn⟩ := turn_of_heed heeds
  cases turn with
  | @directive keyword word value kind directed same =>
    refine still (by rw [beginsRequest, kind]) same ?_
    generalize s'.pending = p at directed
    cases directed with
    | name nonempty =>
      rintro name ⟨⟩
      have directive := ofText_eq_directive_iff.1 kind
      refine ⟨fun c hc => unbroken c (directive.sublist.subset hc), by simpa using nonempty,
        directive.stripped⟩
    | _ => exact waiting
  | request kind pending longer =>
    simp only [kind, if_true] at names notes
    refine ⟨?_, ?_, ?_⟩
    · rw [names, longer, List.filterMap_append, h.names]
      cases hp : s.pending.name <;> simp [hp]
    · rw [names, notes, nodup_append_name s line, h.noted]
      simp only [List.mem_append, not_or, forall_and]
    · rw [pending, longer]
      refine List.forall_mem_cons.2 ⟨?_, List.forall_mem_append.2 ⟨begun, ?_⟩⟩
      · rintro name ⟨⟩
      · exact List.forall_mem_singleton.2 waiting
  | other kind pending same => exact still kind.1 same (pending ▸ waiting)

end State

variable {vars : List Variable}

theorem registers_of_readLines {ls : List (List Char)} {s : State}
    (unbroken : ∀ raw ∈ ls, Unbroken raw) (h : readLines 1 (.start vars) ls = .ok s) :
    s.Registers := by
  induction ls using List.reverseRecOn generalizing s with
  | nil =>
    cases h
    exact .start vars
  | append_singleton ls raw ih =>
    obtain ⟨s₁, s₂, before, here, after⟩ := readLines_through h
    cases after
    obtain ⟨earlier, last⟩ := List.forall_mem_append.1 unbroken
    have registers := ih earlier before
    rw [State.readLine_eq] at here
    split at here
    · cases here
      exact ⟨registers.names, registers.noted, registers.given⟩
    · exact registers.turn (last raw List.mem_cons_self) here

variable {text : String} {parsed : Parsed}

/-- A name given twice is noted, and only that is. -/
theorem nodup_names_iff (h : parse vars text = .ok parsed) :
    (parsed.requests.filterMap (·.name)).Nodup ↔
      ∀ name line, .duplicateName name line ∉ parsed.notes := by
  obtain ⟨s, read, rfl⟩ := exists_readText h
  have registers := registers_of_readLines (fun _ => unbroken_of_mem_lines) read
  have names : s.result.requests.filterMap (·.name) = s.names := by
    rw [registers.names, ← s.finish_begun, List.filterMap_map]
    rfl
  have notes (name : String) (line : Nat) :
      .duplicateName name line ∈ s.result.notes ↔ .duplicateName name line ∈ s.notes := by
    unfold State.result
    split <;> simp
  simp only [names, registers.noted, notes]

theorem trimmed_of_named (h : parse vars text = .ok parsed) {r : Request} (hr : r ∈ parsed.requests)
    {name : String} (named : r.name = some name) : Trimmed name.toList := by
  obtain ⟨s, read, rfl⟩ := exists_readText h
  have begun : announced r ∈ s.begun := by
    rw [← s.finish_begun]
    exact List.mem_map_of_mem hr
  have registers := registers_of_readLines (fun _ => unbroken_of_mem_lines) read
  exact registers.given _ (List.mem_cons_of_mem _ begun) name named

end DotHttp.RequestFile
