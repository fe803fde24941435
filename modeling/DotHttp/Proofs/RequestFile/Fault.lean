import DotHttp.Proofs.RequestFile.Script
import DotHttp.Proofs.RequestFile.Written

/-!
What is wrong with a file that is not read. A fault is always one of a line of the file; only the
number of a duration can keep a file from being read without one.
-/

namespace DotHttp.RequestFile

open DotHttp.Text

/-- The directives that have a duration as their value. -/
def Keyword.isDuration : Keyword → Bool
  | .timeout | .connectionTimeout | .preDelay | .postDelay => true
  | .name | .dependsOn | .condition _ => false

/-- A directive whose duration has more digits than a numeral may have. -/
def OverlongLine (raw : List Char) : Prop :=
  ∃ keyword word value, Line.ofText (strip raw) = .directive keyword word value ∧
    keyword.isDuration = true ∧ Duration.Overlong value.toList

namespace State

variable {s s' : State} {line : Nat} {raw : List Char} {e : Error}

theorem duration_error {word value : String} {bare : Nat}
    (h : duration line word value bare = .error e) :
    (∃ fault, e = .malformed line fault) ∨ (e = .tooManyDigits ∧ Duration.Overlong value.toList) := by
  unfold duration at h
  cases hr : Duration.read value.toList bare with
  | error f =>
    rw [hr] at h
    cases h
    exact .inr ⟨rfl, (Duration.read_error_iff _ bare).1 ⟨f, hr⟩⟩
  | ok o =>
    rw [hr] at h
    cases o with
    | none =>
      cases h
      exact .inl ⟨_, rfl⟩
    | some n => cases h

theorem duration_of_overlong {value : String} (h : Duration.Overlong value.toList) (line : Nat)
    (word : String) (bare : Nat) : duration line word value bare = .error .tooManyDigits := by
  obtain ⟨f, hf⟩ := (Duration.read_error_iff _ bare).2 h
  rw [duration, hf]

theorem direct_error {keyword : Keyword} {word value : String}
    (h : s.direct line keyword word value = .error e) :
    (∃ fault, e = .malformed line fault) ∨
      (e = .tooManyDigits ∧ keyword.isDuration = true ∧ Duration.Overlong value.toList) := by
  -- A directive of a duration fails where its duration does.
  have timed {bare : Nat} {set : Nat → State} (hk : keyword.isDuration = true)
      (hd : (duration line word value bare >>= fun n => .ok (set n)) = .error e) :
      (∃ fault, e = .malformed line fault) ∨
        (e = .tooManyDigits ∧ keyword.isDuration = true ∧ Duration.Overlong value.toList) := by
    cases hn : duration line word value bare with
    | ok n =>
      rw [hn] at hd
      cases hd
    | error e' =>
      rw [hn] at hd
      cases hd
      exact (duration_error hn).imp_right fun ⟨he, long⟩ => ⟨he, hk, long⟩
  cases keyword with
  | name | dependsOn =>
    simp only [direct] at h
    split at h
    · cases h
      exact .inl ⟨_, rfl⟩
    · cases h
  | condition negated =>
    simp only [direct] at h
    split at h
    · cases h
      exact .inl ⟨_, rfl⟩
    · cases h
  | _ => exact timed rfl h

theorem direct_of_overlong {keyword : Keyword} {value : String} (hk : keyword.isDuration = true)
    (h : Duration.Overlong value.toList) (s : State) (line : Nat) (word : String) :
    s.direct line keyword word value = .error .tooManyDigits := by
  cases keyword with
  | name | dependsOn | condition => cases hk
  | _ =>
    simp only [direct, duration_of_overlong h]
    rfl

/-- A line that is not read is faulty itself, or its duration has too many digits. -/
theorem readLine_error (h : s.readLine line raw = .error e) :
    (∃ fault, e = .malformed line fault) ∨
      (e = .tooManyDigits ∧ (opensScript (strip raw) || s.inScript) = false ∧ OverlongLine raw) := by
  rw [readLine_eq] at h
  split at h
  · cases h
  · next outside =>
    cases hk : Line.ofText (strip raw) with rw [hk] at h
    | blank | comment | ignored | definition => cases h
    | directive keyword word value =>
      refine (direct_error h).imp_right fun ⟨he, timed, long⟩ => ⟨he, ?_, ?_⟩
      · exact Bool.eq_false_iff.2 outside
      · exact ⟨keyword, word, value, hk, timed, long⟩
    | unknownDirective word =>
      cases h
      exact .inl ⟨_, rfl⟩
    | assertion kind word expected =>
      simp only [heed, addAssertion] at h
      split at h
      · cases h
        exact .inl ⟨_, rfl⟩
      · cases h
    | request text =>
      simp only [heed, beginRequest] at h
      split at h
      · cases h
        exact .inl ⟨_, rfl⟩
      · cases h
    | content text =>
      simp only [heed, addContent] at h
      split at h
      · cases h
        exact .inl ⟨_, rfl⟩
      · split at h <;> cases h

theorem readLine_of_overlong (outside : (opensScript (strip raw) || s.inScript) = false)
    (h : OverlongLine raw) (line : Nat) : s.readLine line raw = .error .tooManyDigits := by
  obtain ⟨keyword, word, value, hk, timed, long⟩ := h
  rw [readLine_eq, outside, if_neg Bool.false_ne_true, hk]
  exact direct_of_overlong timed long s line word

end State

/-- The line at which reading stops. -/
theorem readLines_error {line : Nat} {s : State} {ls : List (List Char)} {failed : Failed}
    (h : readLines line s ls = .error failed) :
    ∃ before raw after s', ls = before ++ raw :: after ∧ readLines line s before = .ok s' ∧
      s'.readLine (line + before.length) raw = .error failed.error ∧ failed.notes = s'.notes := by
  induction ls generalizing line s with
  | nil => cases h
  | cons raw rest ih =>
    simp only [readLines] at h
    cases hr : s.readLine line raw with
    | error e =>
      rw [hr] at h
      cases h
      exact ⟨[], raw, rest, s, rfl, rfl, hr, rfl⟩
    | ok s₁ =>
      rw [hr] at h
      obtain ⟨before, raw', after, s', rfl, reached, stopped, notes⟩ := ih h
      refine ⟨raw :: before, raw', after, s', rfl, ?_, ?_, notes⟩
      · rw [readLines, hr]
        exact reached
      · rw [List.length_cons, Nat.add_comm before.length, ← Nat.add_assoc]
        exact stopped

theorem readLines_of_error {line : Nat} {s s' : State} {before : List (List Char)}
    {raw : List Char} {e : Error} (hb : readLines line s before = .ok s')
    (hr : s'.readLine (line + before.length) raw = .error e) (after : List (List Char)) :
    readLines line s (before ++ raw :: after) = .error ⟨e, s'.notes⟩ := by
  rw [readLines_append, hb]
  simp only [readLines, hr]

theorem parse_error_iff {vars : List Variable} {text : String} {failed : Failed} :
    parse vars text = .error failed ↔ readText vars text = .error failed := by
  unfold parse
  cases readText vars text <;> simp [Except.map]

/-- The line that a text is refused at is come to and cannot be read there. -/
theorem stopped_of_refused {vars : List Variable} {text : String} {before after : List (List Char)}
    {raw : List Char} {fault : Fault} {notes : List Note} (split : lines text.toList = before ++ raw :: after)
    (h : parse vars text = .error ⟨.malformed (before.length + 1) fault, notes⟩) :
    ∃ s, readLines 1 (.start vars) before = .ok s ∧
      s.readLine (before.length + 1) raw = .error (.malformed (before.length + 1) fault) := by
  obtain ⟨before', raw', after', s, split', reached, stopped, -⟩ := readLines_error (parse_error_iff.1 h)
  rcases State.readLine_error stopped with ⟨fault', here⟩ | ⟨digits, -⟩
  · -- The number of the line tells how many lines stand before it.
    obtain ⟨place, rfl⟩ := Error.malformed.inj here
    have count : before'.length = before.length := by omega
    obtain ⟨rfl, same⟩ := List.append_inj (split'.symm.trans split) count
    obtain ⟨rfl, rfl⟩ := List.cons.inj same
    rw [Nat.add_comm 1] at stopped
    exact ⟨s, reached, stopped⟩
  · cases digits

/-- A text is refused at a line that is come to just if that line cannot be read there. -/
theorem refused_at_iff {vars : List Variable} {text : String} {before after : List (List Char)}
    {raw : List Char} {s : State} (split : lines text.toList = before ++ raw :: after)
    (reached : readLines 1 (.start vars) before = .ok s) (fault : Fault) :
    (∃ notes, parse vars text = .error ⟨.malformed (before.length + 1) fault, notes⟩) ↔
      s.readLine (before.length + 1) raw = .error (.malformed (before.length + 1) fault) := by
  constructor
  · intro ⟨notes, refused⟩
    obtain ⟨s', reached', stopped⟩ := stopped_of_refused split refused
    rw [reached] at reached'
    cases reached'
    exact stopped
  · intro stopped
    refine ⟨s.notes, ?_⟩
    rw [Nat.add_comm] at stopped ⊢
    rw [parse_error_iff, readText, split]
    exact readLines_of_error reached stopped after

/-- Reading comes to a line, outside of script blocks, whose duration has too many digits. -/
def ReachesOverlong (vars : List Variable) (text : String) : Prop :=
  ∃ before raw after s, lines text.toList = before ++ raw :: after ∧
    readLines 1 (.start vars) before = .ok s ∧ ¬ ScriptLine before raw ∧ OverlongLine raw

theorem parse_of_overlong {vars : List Variable} {text : String} (h : ReachesOverlong vars text) :
    ∃ notes, parse vars text = .error ⟨.tooManyDigits, notes⟩ := by
  obtain ⟨before, raw, after, s, split, reached, outside, long⟩ := h
  rw [← readLines_scriptLine reached raw, Bool.not_eq_true] at outside
  refine ⟨s.notes, ?_⟩
  rw [parse_error_iff, readText, split]
  exact readLines_of_error reached (State.readLine_of_overlong outside long _) after

/-- A text that is not read has a line that is at fault, or one that reading cannot deal with. -/
theorem parse_error {vars : List Variable} {text : String} {failed : Failed}
    (h : parse vars text = .error failed) :
    (∃ n fault, failed.error = .malformed n fault ∧ 1 ≤ n ∧ n ≤ (lines text.toList).length) ∨
      (failed.error = .tooManyDigits ∧ ReachesOverlong vars text) := by
  obtain ⟨before, raw, after, s, split, reached, stopped, notes⟩ :=
    readLines_error (parse_error_iff.1 h)
  rcases State.readLine_error stopped with ⟨fault, he⟩ | ⟨he, outside, long⟩
  · refine .inl ⟨1 + before.length, fault, he, by omega, ?_⟩
    rw [split, List.length_append, List.length_cons]
    omega
  · refine .inr ⟨he, before, raw, after, s, split, reached, ?_, long⟩
    rw [← readLines_scriptLine reached raw, outside]
    exact Bool.false_ne_true

/-- Reading a text gives its requests or a fault in one of its lines, unless it comes to a duration
with too many digits. -/
theorem parse_ends_iff (vars : List Variable) (text : String) :
    ((∃ p, parse vars text = .ok p) ∨
      ∃ n fault notes, parse vars text = .error ⟨.malformed n fault, notes⟩ ∧
        1 ≤ n ∧ n ≤ (lines text.toList).length) ↔ ¬ ReachesOverlong vars text := by
  constructor
  · intro ends long
    obtain ⟨notes, hn⟩ := parse_of_overlong long
    rcases ends with ⟨p, hp⟩ | ⟨n, fault, notes', hf, -⟩
    · rw [hn] at hp
      cases hp
    · rw [hn] at hf
      cases hf
  · intro fine
    cases hp : parse vars text with
    | ok p => exact .inl ⟨p, rfl⟩
    | error failed =>
      rcases parse_error hp with ⟨n, fault, he, first, last⟩ | ⟨-, long⟩
      · refine .inr ⟨n, fault, failed.notes, ?_, first, last⟩
        rw [← he]
      · exact (fine long).elim

/-- The text of a file with one request, and a timeout of so many ones. -/
def longTimeout (digits : Nat) : String :=
  String.ofList (directiveLine "timeout" (String.ofList (List.replicate digits '1')) ++
    "\nGET https://a\n".toList)

theorem overlong_longTimeout (digits : Nat) (h : Numeral.maxDigits < digits) :
    ReachesOverlong [] (longTimeout digits) := by
  have ones : ∀ c ∈ List.replicate digits '1', c = '1' := fun c hc => List.eq_of_mem_replicate hc
  have compact : Compact (List.replicate digits '1') := by
    refine ⟨?_, fun c hc => ?_⟩
    · rw [← List.length_pos_iff, List.length_replicate]
      omega
    · rw [ones c hc]
      rfl
  have stripped := strip_of_compact compact
  have value : Value (String.ofList (List.replicate digits '1')).toList := by
    rw [String.toList_ofList]
    refine ⟨compact.unbroken, compact.nonempty, stripped, ?_⟩
    intro colon
    exact absurd (ones _ (List.mem_of_mem_head? colon)) (by decide)
  have known : ("timeout", Keyword.timeout) ∈ keywords := by decide
  obtain ⟨opens, kind⟩ := kind_directiveLine known value
  refine ⟨[], _, lines "GET https://a\n".toList, .start [], ?_, rfl, ?_,
    .timeout, "timeout", _, kind, rfl, ?_⟩
  · rw [longTimeout, String.toList_ofList]
    exact lines_of_plain (directiveLine_unbroken .timeout known value) _
  · rintro (opened | inside)
    · rw [opens] at opened
      cases opened
    · exact not_inScript_nil inside
  · rw [String.toList_ofList]
    refine ⟨List.replicate digits '1', [], ?_, List.mem_cons_self, ?_, ?_⟩
    · rw [stripped, List.append_nil]
    · intro c hc
      rw [stripped] at hc
      rw [ones c hc]
      rfl
    · rw [stripped, List.length_replicate]
      exact h

/-- The first number of digits that is too many keeps a file from being read without a fault. -/
theorem parse_longTimeout : ¬ ∀ vars text, (∃ p, parse vars text = .ok p) ∨
    ∃ n fault notes, parse vars text = .error ⟨.malformed n fault, notes⟩ ∧
      1 ≤ n ∧ n ≤ (lines text.toList).length := by
  intro ends
  obtain ⟨notes, hn⟩ := parse_of_overlong (overlong_longTimeout 4301 (by decide))
  rcases ends [] (longTimeout 4301) with ⟨p, hp⟩ | ⟨n, fault, notes', hf, -⟩
  · rw [hn] at hp
    cases hp
  · rw [hn] at hf
    cases hf

end DotHttp.RequestFile
