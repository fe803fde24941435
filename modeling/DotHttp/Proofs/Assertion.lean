import DotHttp.Assertion

/-!
Which assertions hold of an outcome, said of the outcome itself. A check passes exactly for those, and
has a message exactly for the others.
-/

namespace DotHttp.Assertion

open DotHttp.Text

/-- Some header has a name, up to letter case, and a value with a text in it. White space around the
name and the text does not count. -/
def Mentioned (headers : List (String × String)) (name value : List Char) : Prop :=
  ∃ h ∈ headers, h.1.lowerCase = (String.ofList (strip name)).lowerCase ∧
    strip value <:+: h.2.toList

/-- What an outcome must be like for an assertion to hold of it: its status is the expected number, its
body contains the expected text, or its headers mention the value that is expected of a name. -/
def Holds (a : Assertion) (o : Outcome) : Prop :=
  match a.kind with
  | .status => Numeral.readInt (strip a.expected.toList) = .ok o.status
  | .body => ∃ body, o.body = some body ∧ a.expected.toList <:+: body.toList
  | .headers =>
    ∃ headers name value, o.headers = some headers ∧ a.expected.toList = name ++ ':' :: value ∧
      ':' ∉ name ∧ Mentioned headers name value

/-- The result of a check: it is about the assertion, and says why the assertion fails if it does. -/
structure Tells (a : Assertion) (holds : Prop) (r : AssertionResult) : Prop where
  assertion : r.assertion = a
  passed : r.passed = true ↔ holds
  message : r.message = none ↔ r.passed = true

variable {a : Assertion} {o : Outcome} {holds : Prop}

theorem tells_pass (a : Assertion) (actual : String) (h : holds) : Tells a holds (a.pass actual) :=
  ⟨rfl, iff_of_true rfl h, iff_of_true rfl rfl⟩

theorem tells_fail (a : Assertion) (actual message : String) (h : ¬ holds) :
    Tells a holds (a.fail actual message) :=
  ⟨rfl, iff_of_false Bool.false_ne_true h, iff_of_false (by simp [fail]) Bool.false_ne_true⟩

theorem checkStatus_tells (a : Assertion) (o : Outcome) :
    Tells a (Numeral.readInt (strip a.expected.toList) = .ok o.status) (a.checkStatus o) := by
  unfold checkStatus
  cases hn : Numeral.readInt (strip a.expected.toList) with
  | error f => exact tells_fail a _ _ (by simp)
  | ok n =>
    dsimp only
    split
    · next same => exact tells_pass a _ (congrArg _ same.symm)
    · next other => exact tells_fail a _ _ fun h => other (Except.ok.inj h).symm

theorem checkBody_tells (a : Assertion) (o : Outcome) :
    Tells a (∃ body, o.body = some body ∧ a.expected.toList <:+: body.toList) (a.checkBody o) := by
  unfold checkBody
  cases hb : o.body with
  | none => exact tells_fail a _ _ (by simp)
  | some body =>
    dsimp only
    split
    · next inside => exact tells_pass a _ ⟨body, rfl, (occursIn_iff _ _).1 inside⟩
    · next outside =>
      refine tells_fail a _ _ ?_
      rintro ⟨_, same, inside⟩
      cases same
      exact outside ((occursIn_iff _ _).2 inside)

/-- The values that a check of headers looks at are those of the headers with the name. -/
theorem mentioned_iff {headers : List (String × String)} {name value : List Char} :
    Mentioned headers name value ↔
      ∃ v ∈ (headers.filter fun (n, _) =>
          n.lowerCase = (String.ofList (strip name)).lowerCase).map Prod.snd,
        occursIn (String.ofList (strip value)).toList v.toList = true := by
  simp only [Mentioned, List.mem_map, List.mem_filter, decide_eq_true_eq, occursIn_iff,
    String.toList_ofList]
  constructor
  · rintro ⟨h, member, named, inside⟩
    exact ⟨h.2, ⟨h, ⟨member, named⟩, rfl⟩, inside⟩
  · rintro ⟨_, ⟨h, ⟨member, named⟩, rfl⟩, inside⟩
    exact ⟨h, member, named, inside⟩

theorem checkHeaders_tells (a : Assertion) (o : Outcome) :
    Tells a (∃ headers name value, o.headers = some headers ∧
      a.expected.toList = name ++ ':' :: value ∧ ':' ∉ name ∧ Mentioned headers name value)
      (a.checkHeaders o) := by
  unfold checkHeaders
  split
  · next none =>
    refine tells_fail a _ _ ?_
    rintro ⟨headers, _, _, present, -, -, h, hh, -⟩
    rw [present, Option.getD_some] at none
    rw [none] at hh
    cases hh
  · next nonempty =>
    obtain ⟨headers, present⟩ : ∃ headers, o.headers = some headers := by
      cases ho : o.headers with
      | none => simp [ho] at nonempty
      | some headers => exact ⟨headers, rfl⟩
    rw [present, Option.getD_some]
    cases parts : splitFirst ':' a.expected.toList with
    | none =>
      refine tells_fail a _ _ ?_
      rintro ⟨_, name, value, -, split, fresh, -⟩
      rw [split, splitFirst_append fresh] at parts
      cases parts
    | some pair =>
      obtain ⟨name, value⟩ := pair
      obtain ⟨split, fresh⟩ := splitFirst_eq_some_iff.1 parts
      -- The first colon is in one place only, so there is one name and one value to look for.
      have unique : (∃ headers' name' value', some headers = some headers' ∧
          a.expected.toList = name' ++ ':' :: value' ∧ ':' ∉ name' ∧
          Mentioned headers' name' value') ↔ Mentioned headers name value := by
        constructor
        · rintro ⟨_, name', value', same, split', fresh', found⟩
          cases same
          rw [split', splitFirst_append fresh'] at parts
          cases parts
          exact found
        · exact fun found => ⟨headers, name, value, rfl, split, fresh, found⟩
      rw [unique, mentioned_iff]
      dsimp only
      generalize (headers.filter _).map Prod.snd = found
      split
      · exact tells_fail a _ _ (by simp)
      · split
        · next inside => exact tells_pass a _ (List.any_eq_true.1 inside)
        · next outside => exact tells_fail a _ _ fun h => outside (List.any_eq_true.2 h)

theorem check_tells (a : Assertion) (o : Outcome) : Tells a (a.Holds o) (a.check o) := by
  unfold check Holds
  cases a.kind with
  | status => exact checkStatus_tells a o
  | body => exact checkBody_tells a o
  | headers => exact checkHeaders_tells a o

end DotHttp.Assertion
