import DotHttp.Proofs.RequestFile.Attached

/-!
Request files without their directives. What a directive gives a request is all that depends on it:
a text without them is read to the same requests up to that.
-/

namespace DotHttp.RequestFile

open DotHttp.Text

/-- The lines of a text that are outside of script blocks. -/
def openLines (text : String) : List (List Char) :=
  unscripted false (lines text.toList)

/-- Lines without the directives among them. -/
def withoutDirectives (ls : List (List Char)) : List (List Char) :=
  ls.filter (!givesDirective ·)

variable {vars : List Variable} {ls : List (List Char)} {raw : List Char} {t s s' : State}
  {line : Nat}

/-- A request without what directives give it. -/
def undirected (r : Request) : Request :=
  { r with
    name := none
    dependsOn := none
    conditions := []
    timeout := none
    connectionTimeout := none
    preDelay := none
    postDelay := none }

/-- A state outside of script blocks that differs from another in directives only. -/
structure Alike (t s : State) : Prop where
  outside : t.inScript = false
  definitions : t.definitions = s.definitions
  requests : t.requests.map undirected = s.requests.map undirected
  current : t.current.map undirected = s.current.map undirected
  inBody : t.inBody = s.inBody
  body : t.body = s.body

/-- Of the other state it does not matter what waits and whether a script block is open. -/
theorem Alike.passing (h : Alike t s) (p : Pending) (inScript : Bool) :
    Alike t { s with pending := p, inScript } :=
  ⟨h.outside, h.definitions, h.requests, h.current, h.inBody, h.body⟩

theorem Alike.of_current (h : Alike t s) {r : Request} (current : s.current = some r) :
    ∃ r', t.current = some r' ∧ undirected r' = undirected r := by
  have same := h.current
  rw [current] at same
  exact Option.map_eq_some_iff.1 same

theorem Alike.of_none (h : Alike t s) (current : s.current = none) : t.current = none := by
  have same := h.current
  rw [current] at same
  exact Option.map_eq_none_iff.1 same

theorem Alike.finish (h : Alike t s) : Alike t.finish s.finish := by
  unfold State.finish
  cases hs : s.current with
  | none =>
    rw [h.of_none hs]
    exact h
  | some r =>
    obtain ⟨r', hr, same⟩ := h.of_current hs
    have filled := congrArg (fun q : Request => { q with body := State.bodyText s.body }) same
    rw [hr, h.body]
    refine ⟨h.outside, h.definitions, ?_, rfl, rfl, rfl⟩
    rw [List.map_append, List.map_append, h.requests]
    exact congrArg (fun q => _ ++ [q]) filled

theorem Alike.skipLine (h : Alike t s) : Alike t.skipLine s.skipLine := by
  have waiting : t.current.isSome = s.current.isSome := by
    rw [← Option.isSome_map (f := undirected), h.current, Option.isSome_map]
  unfold State.skipLine
  rw [h.inBody, waiting]
  split
  · exact ⟨h.outside, h.definitions, h.requests, h.current, rfl, congrArg (· ++ [""]) h.body⟩
  · split
    · exact ⟨h.outside, h.definitions, h.requests, h.current, rfl, h.body⟩
    · exact h

theorem Alike.beginRequest (h : Alike t s) {text : List Char}
    (hs : s.beginRequest line text = .ok s') (line' : Nat) :
    ∃ t', t.beginRequest line' text = .ok t' ∧ Alike t' s' := by
  obtain ⟨outside, definitions, requests, -, inBody, body⟩ := h.finish
  simp only [State.beginRequest, State.expand, definitions] at hs ⊢
  split at hs
  · cases hs
  · cases hs
    exact ⟨_, rfl, outside, rfl, requests, rfl, inBody, body⟩

theorem Alike.addAssertion (h : Alike t s) {kind : Assertion.Kind} {word expected : String}
    (hs : s.addAssertion line kind word expected = .ok s') (line' : Nat) :
    ∃ t', t.addAssertion line' kind word expected = .ok t' ∧ Alike t' s' := by
  unfold State.addAssertion at hs ⊢
  split at hs
  · cases hs
  · next r current =>
    cases hs
    obtain ⟨r', current', same⟩ := h.of_current current
    have longer := congrArg (fun q : Request => { q with
      assertions := q.assertions ++ [Assertion.mk kind (s.expand expected)] }) same
    simp only [current', State.expand, h.definitions]
    exact ⟨_, rfl, h.outside, rfl, h.requests, congrArg some longer, h.inBody, h.body⟩

theorem Alike.addContent (h : Alike t s) {text : List Char}
    (hs : s.addContent line raw text = .ok s') (line' : Nat) :
    ∃ t', t.addContent line' raw text = .ok t' ∧ Alike t' s' := by
  unfold State.addContent at hs ⊢
  split at hs
  · cases hs
  · next r current =>
    obtain ⟨r', current', same⟩ := h.of_current current
    simp only [current', State.expand, h.definitions, h.inBody, h.body] at hs ⊢
    split at hs
    · next name value parts =>
      cases hs
      let header : Header :=
        ⟨s.expand (String.ofList (strip name)), s.expand (String.ofList (strip value))⟩
      have longer := congrArg (fun q : Request => { q with headers := q.headers ++ [header] }) same
      exact ⟨_, rfl, h.outside, rfl, h.requests, congrArg some longer, rfl, rfl⟩
    · cases hs
      exact ⟨_, rfl, h.outside, rfl, h.requests, current' ▸ h.current, rfl, rfl⟩

/-- A line that is no directive does the same in both states. -/
theorem Alike.heed {kind : Line} (h : Alike t s) (hs : s.heed line raw kind = .ok s')
    (other : ∀ keyword word value, kind ≠ .directive keyword word value) (line' : Nat) :
    ∃ t', t.heed line' raw kind = .ok t' ∧ Alike t' s' := by
  cases kind with
  | blank =>
    cases hs
    exact ⟨_, rfl, h.skipLine⟩
  | comment | ignored =>
    cases hs
    exact ⟨t, rfl, h⟩
  | directive keyword word value => exact (other keyword word value rfl).elim
  | unknownDirective word => cases hs
  | definition name value =>
    cases hs
    refine ⟨_, rfl, h.outside, ?_, h.requests, h.current, h.inBody, h.body⟩
    simp only [State.define, State.expand, h.definitions]
  | assertion kind word expected => exact h.addAssertion hs line'
  | request text => exact h.beginRequest hs line'
  | content text => exact h.addContent hs line'

/-- A line of a script block and one with a directive may be left out. -/
theorem Alike.readLine (h : Alike t s) (hs : s.readLine line raw = .ok s') (line' : Nat) :
    ∃ t', readLines line' t (withoutDirectives
      (if opensScript (strip raw) || s.inScript then [] else [raw])) = .ok t' ∧ Alike t' s' := by
  rw [State.readLine_eq] at hs
  split at hs
  · next script =>
    cases hs
    rw [if_pos script]
    exact ⟨t, rfl, h.passing _ _⟩
  · next script =>
    rw [if_neg script, withoutDirectives]
    by_cases directs : givesDirective raw = true
    · obtain ⟨keyword, word, value, kind⟩ := givesDirective_iff.1 directs
      rw [kind] at hs
      obtain ⟨p, rfl, -⟩ := directed_of_direct hs
      rw [List.filter_cons_of_neg (by simp [directs])]
      exact ⟨t, rfl, h.passing _ _⟩
    · have other (keyword : Keyword) (word value : String) :
          Line.ofText (strip raw) ≠ .directive keyword word value :=
        fun kind => directs (givesDirective_iff.2 ⟨keyword, word, value, kind⟩)
      obtain ⟨t', ht, same⟩ := h.heed hs other line'
      have outside : ¬ (opensScript (strip raw) || t.inScript) = true := by
        rw [h.outside, Bool.or_false]
        exact fun opens => script (by rw [opens, Bool.true_or])
      have read := t.readLine_eq line' raw
      rw [if_neg outside, ht] at read
      rw [List.filter_cons_of_pos (by simp [directs])]
      exact ⟨t', by rw [List.filter_nil, readLines, read]; rfl, same⟩

/-- Reading goes on alike without the directives and without the script blocks. -/
theorem Alike.readLines (h : Alike t s) (hs : readLines line s ls = .ok s') (line' : Nat) :
    ∃ t', readLines line' t (withoutDirectives (unscripted s.inScript ls)) = .ok t' ∧
      Alike t' s' := by
  induction ls generalizing line line' s t with
  | nil =>
    cases hs
    exact ⟨t, rfl, h⟩
  | cons raw rest ih =>
    simp only [RequestFile.readLines] at hs
    cases hr : s.readLine line raw with rw [hr] at hs
    | error e => cases hs
    | ok s₁ =>
      obtain ⟨t₁, first, same⟩ := h.readLine hr line'
      obtain ⟨t', reads, alike⟩ := ih same hs (line' + _)
      refine ⟨t', ?_, alike⟩
      rw [unscripted, ← State.readLine_inScript hr, withoutDirectives, List.filter_append,
        ← withoutDirectives, ← withoutDirectives, readLines_append, first]
      exact reads

theorem exists_readText {text : String} {parsed : Parsed} (h : parse vars text = .ok parsed) :
    ∃ s, readLines 1 (.start vars) (lines text.toList) = .ok s ∧ s.result = parsed := by
  unfold parse readText at h
  cases hr : readLines 1 (.start vars) (lines text.toList) with rw [hr] at h
  | error e => cases h
  | ok s => exact ⟨s, rfl, Except.ok.inj h⟩

/-- The requests of a text as far as its directives are left out. -/
theorem undirected_requests {text : String} {parsed : Parsed} (h : parse vars text = .ok parsed) :
    ∃ t, readLines 1 (.start vars) (withoutDirectives (openLines text)) = .ok t ∧
      parsed.requests.map undirected = t.finish.requests.map undirected := by
  obtain ⟨s, read, rfl⟩ := exists_readText h
  have start : Alike (.start vars) (.start vars) := ⟨rfl, rfl, rfl, rfl, rfl, rfl⟩
  obtain ⟨t, reads, alike⟩ := start.readLines read 1
  exact ⟨t, reads, alike.finish.requests.symm⟩

theorem requests_undirected {text text' : String} {parsed parsed' : Parsed}
    (h : parse vars text = .ok parsed) (h' : parse vars text' = .ok parsed')
    (same : withoutDirectives (openLines text') = withoutDirectives (openLines text)) :
    parsed'.requests.map undirected = parsed.requests.map undirected := by
  obtain ⟨t, reads, alike⟩ := undirected_requests h
  obtain ⟨t', reads', alike'⟩ := undirected_requests h'
  rw [same] at reads'
  obtain rfl : t = t' := Except.ok.inj (reads.symm.trans reads')
  rw [alike, alike']

end DotHttp.RequestFile
