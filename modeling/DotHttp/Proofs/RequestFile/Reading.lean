import DotHttp.RequestFile

/-!
Reading line by line. What one line does to the state is told by its kind; the number of the line
matters to faults and notes only.
-/

namespace DotHttp.RequestFile

open DotHttp.Text

/-- Between requests no body is kept. -/
def State.Settled (s : State) : Prop :=
  s.current = none → s.body = [] ∧ s.inBody = false

theorem bodyText_append_blank (lines : List String) :
    State.bodyText (lines ++ [""]) = State.bodyText lines := by
  have blank : State.isBlankLine "" = true := by decide
  simp [State.bodyText, blank]

namespace State

variable {s s' : State} {line : Nat} {raw : List Char}

theorem finish_requests (s : State) :
    s.finish.requests =
      s.requests ++ (s.current.map fun r => { r with body := bodyText s.body }).toList := by
  unfold finish
  cases s.current <;> simp

theorem Settled.finish (hs : s.Settled) : s.finish.body = [] ∧ s.finish.inBody = false := by
  unfold State.finish
  split
  · next h => exact hs h
  · exact ⟨rfl, rfl⟩

theorem Settled.skipLine (h : s.Settled) : s.skipLine.Settled := by
  intro hn
  unfold State.skipLine at hn ⊢
  split at hn
  · next hi => simp [(h hn).2] at hi
  · split at hn
    · next hc => simp [show s.current = none from hn] at hc
    · next hi hc =>
      rw [if_neg hi, if_neg hc]
      exact h hn

theorem skipLine_requests (s : State) : s.skipLine.finish.requests = s.finish.requests := by
  unfold skipLine
  split
  · -- The blank line stands at the end of the body and is dropped with the others there.
    rw [finish_requests, finish_requests, bodyText_append_blank]
  · split
    · rw [finish_requests, finish_requests]
    · rfl

theorem skipLine_outside (s : State) : s.skipLine.definitions = s.definitions ∧
    s.skipLine.pending = s.pending ∧ s.skipLine.inScript = s.inScript := by
  unfold skipLine
  split
  · exact ⟨rfl, rfl, rfl⟩
  · split <;> exact ⟨rfl, rfl, rfl⟩

@[simp] theorem finish_definitions (s : State) : s.finish.definitions = s.definitions := by
  unfold finish
  split <;> rfl

@[simp] theorem finish_pending (s : State) : s.finish.pending = s.pending := by
  unfold finish
  split <;> rfl

@[simp] theorem finish_inScript (s : State) : s.finish.inScript = s.inScript := by
  unfold finish
  split <;> rfl

theorem duration_line {word value : String} {bare n : Nat}
    (h : duration line word value bare = .ok n) (line' : Nat) :
    duration line' word value bare = .ok n := by
  unfold duration at h ⊢
  split at h
  · cases h
  · cases h
  · exact h

/-- A directive changes what waits and nothing else, and of a state it looks at the definitions and at
what waits already. -/
theorem direct_pending {keyword : Keyword} {word value : String}
    (h : s.direct line keyword word value = .ok s') :
    ∃ p, s' = { s with pending := p } ∧
      ∀ (t : State) (line' : Nat), t.definitions = s.definitions → t.pending = s.pending →
        t.direct line' keyword word value = .ok { t with pending := p } := by
  cases keyword with
  | name =>
    simp only [direct] at h ⊢
    split at h
    · cases h
    · next hv =>
      cases h
      exact ⟨_, rfl, fun t _ _ hp => by rw [if_neg hv, hp]⟩
  | dependsOn =>
    simp only [direct] at h ⊢
    split at h
    · cases h
    · next hv =>
      cases h
      exact ⟨_, rfl, fun t _ _ hp => by rw [if_neg hv, hp]⟩
  | condition negated =>
    simp only [direct, expand] at h ⊢
    split at h
    · cases h
    · next c hc =>
      cases h
      exact ⟨_, rfl, fun t _ hd hp => by rw [hd, hc, hp]⟩
  | _ =>
    simp only [direct] at h ⊢
    cases hn : duration line word value _ with
    | error e => rw [hn] at h; cases h
    | ok n =>
      rw [hn] at h
      cases h
      exact ⟨_, rfl, fun t line' _ hp => by rw [duration_line hn line', hp]; rfl⟩

/-- A request line ends the request before it and begins one that the definitions and the directives
that wait decide. -/
theorem beginRequest_current {text : List Char} (h : s.beginRequest line text = .ok s') :
    ∃ r names notes,
      s' = { s.finish with current := some r, pending := .empty, names := names, notes := notes } ∧
      ∀ (t : State) (line' : Nat), t.definitions = s.definitions → t.pending = s.pending →
        ∃ names' notes', t.beginRequest line' text = .ok { t.finish with
          current := some r, pending := .empty, names := names', notes := notes' } := by
  simp only [beginRequest, expand, finish_definitions, finish_pending] at h ⊢
  split at h
  · cases h
  · next url hu =>
    cases h
    refine ⟨_, _, _, rfl, fun t line' hd hp =>
      ⟨t.finish.names ++ t.pending.name.toList, t.finish.notes ++ t.finish.nameNotes line', ?_⟩⟩
    rw [hd, hp]

/-- What a line outside of script blocks does, by its kind. -/
def heed (s : State) (line : Nat) (raw : List Char) : Line → Except Error State
  | .blank => .ok s.skipLine
  | .comment | .ignored => .ok s
  | .directive keyword word value => s.direct line keyword word value
  | .unknownDirective word => .error (.malformed line (.unknownDirective word))
  | .definition name value => .ok (s.define name value)
  | .assertion kind word expected => s.addAssertion line kind word expected
  | .request text => s.beginRequest line text
  | .content text => s.addContent line raw text

theorem readLine_eq (s : State) (line : Nat) (raw : List Char) :
    s.readLine line raw =
      if opensScript (strip raw) || s.inScript then
        .ok { s with inScript := !closesScript (strip raw) }
      else s.heed line raw (Line.ofText (strip raw)) := by
  unfold readLine
  dsimp only
  by_cases ho : opensScript (strip raw) = true
  · rw [if_pos ho, if_pos (by rw [ho, Bool.true_or])]
  · rw [if_neg ho]
    by_cases hi : s.inScript = true
    · rw [if_pos hi, if_pos (by rw [hi, Bool.or_true])]
    · rw [if_neg hi, if_neg (by simp [ho, hi])]
      cases Line.ofText (strip raw) <;> rfl

end State

theorem readLine_nil {s : State} (outside : s.inScript = false) (line : Nat) :
    s.readLine line [] = .ok s.skipLine := by
  rw [State.readLine_eq, outside]
  rfl

theorem readLines_append (line : Nat) (s : State) (xs ys : List (List Char)) :
    readLines line s (xs ++ ys) =
      match readLines line s xs with
      | .error e => .error e
      | .ok s' => readLines (line + xs.length) s' ys := by
  induction xs generalizing line s with
  | nil => rfl
  | cons x xs ih =>
    simp only [List.cons_append, readLines]
    cases s.readLine line x with
    | error e => rfl
    | ok s' =>
      simp only [ih]
      rw [List.length_cons, Nat.add_right_comm, Nat.add_assoc]

end DotHttp.RequestFile
