import DotHttp.Proofs.CommandLine.Output
import DotHttp.Proofs.Run.Totals

/-!
How a command ends: with a failure that is reported and no summary, whether its configuration or one of
its files has it, or with a summary whose numbers and whose verdict agree with the events shown and
with the status.
-/

namespace DotHttp.CommandLine

open Run

variable {σ : Type} {host : Host σ} {around : Surroundings} {a : Arguments} {m : Machine σ}
  {p p' : Progress σ} {s : Setup} {f : Failure} {paths : List String} {config : RunConfig}
  {results : Results} {t : Session σ}

/-- Where a command starts. -/
def Machine.start (m : Machine σ) : Progress σ :=
  ⟨m, [], [], []⟩

/-- Where the runs of a command start. -/
def Machine.session (m : Machine σ) : Session σ :=
  ⟨m.world, m.next, false, []⟩

/-- The lines that say which files were found, if any were looked for. -/
def discovered (tree : FileTree) (a : Arguments) : List String :=
  if a.discover then
    let found := tree.filesEndingIn requestFileEnding "."
    s!"Found {found.length} .http file(s):" :: found.map ("  " ++ ·)
  else []

/-- The lines that are shown of what happens. -/
def shownEvents (s : Setup) (hs : List Happening) : List String :=
  (Happening.events hs).map (Report.event s.logging.verbose s.pretty)

/-- A command that reports a failure, after some lines and with no summary. -/
structure Reported (around : Surroundings) (f : Failure) (lines : List String)
    (hs : List Happening) (e : Ending) : Prop where
  status : e.status = 1
  defect : e.defect = none
  errors : ∃ before,
    e.errors = linesText (before ++ [shown around.styledErrors ("ERROR: " ++ f.message)])
  output : e.output = linesText (lines.map (shown around.styledOutput))
  happenings : e.happenings = hs

/-- A command whose files have results, and that sums them up. -/
structure Concluded (around : Surroundings) (tree : FileTree) (a : Arguments) (s : Setup)
    (results : Results) (e : Ending) : Prop where
  defect : e.defect = none
  bound : e.status ≤ 1
  status : e.status = 0 ↔
    (∀ run ∈ results.files, ∀ c ∈ run.store.contexts, ∀ o, c.outcome = some o →
      o.success = true) ∧
      List.Forall₂ (Whole tree) s.paths results.files
  output : e.output = linesText ((discovered tree a ++ shownEvents s e.happenings ++
    "" :: Report.summary results).map (shown around.styledOutput))
  counted : Report.sum (·.succeeded) results.files + Report.sum (·.failed) results.files +
    Report.sum (·.skipped) results.files = (Happening.events e.happenings).length
  overall : ∃ verdict, (verdict = "PASSED" ∨ verdict = "FAILED") ∧
    (verdict = "PASSED" ↔ Report.sum (·.failed) results.files = 0) ∧
    Report.overall results = s!"{verdict}: {results.files.length} file(s), " ++
      s!"{Report.sum (·.succeeded) results.files} passed, " ++
      s!"{Report.sum (·.failed) results.files} failed, " ++
      s!"{Report.sum (·.skipped) results.files} skipped"

/-- What the ending of a command says of its configuration and of its files. -/
structure Settles (host : Host σ) (around : Surroundings) (m : Machine σ) (a : Arguments)
    (e : Ending) : Prop where
  refused : ∀ f p, runFrom (setup around a) m.start = (.error (.failure f), p) →
    f.isReported = true → Reported around f [] [] e
  failed : ∀ s p f t, runFrom (setup around a) m.start = (.ok s, p) → s.paths ≠ [] →
    runFrom (files p.machine.tree host s.config s.paths) p.machine.session = (.error f, t) →
    f.isReported = true →
    Reported around f (discovered p.machine.tree a ++ shownEvents s t.happenings) t.happenings e
  concluded : ∀ s p results t, runFrom (setup around a) m.start = (.ok s, p) → s.paths ≠ [] →
    runFrom (files p.machine.tree host s.config s.paths) p.machine.session = (.ok results, t) →
    Concluded around p.machine.tree a s results e ∧ e.happenings = t.happenings

theorem quiet_configuration : Quiet (configuration around a : Command σ _) := by
  refine .bind .get fun p => ?_
  refine .bind (says_noteEarly _).quiet fun _ => ?_
  refine .bind (.liftFailure _) fun document => ?_
  refine .bind (.liftFailure _) fun defaults => ?_
  refine .bind (says_complaints _).quiet fun _ => ?_
  refine .bind (says_noteEarly _).quiet fun _ => ?_
  exact .pure _

theorem quiet_setLogging (stamp : String) (verbose : Bool) (name : Setting) :
    Quiet (setLogging stamp verbose name : Command σ _) := by
  refine .bind (.machine _) fun _ => ?_
  refine .bind .get fun p => ?_
  refine .bind (.liftFailure _) fun opened => ?_
  refine .bind (.machine _) fun _ => ?_
  exact .pure _

/-- Collecting files says which were found and changes nothing. -/
theorem collectFiles_ok (h : runFrom (collectFiles a) p = (.ok paths, p')) :
    p' = { p with output := p.output ++ discovered p.machine.tree a } := by
  unfold collectFiles at h
  rw [discovered]
  cases hd : a.discover with
  | false =>
    rw [hd] at h
    cases h
    simp
  | true =>
    rw [hd] at h
    obtain ⟨_, _, got, h⟩ := runFrom_bind_eq_ok h
    cases got
    split at h
    · cases h
    · obtain ⟨_, p₁, said, h⟩ := runFrom_bind_eq_ok h
      obtain ⟨_, p₂, listed, h⟩ := runFrom_bind_eq_ok h
      cases h
      cases said
      rw [runFrom_sayEach] at listed
      cases listed
      simp

theorem collectFiles_error {stop : Stop} (h : runFrom (collectFiles a) p = (.error stop, p')) :
    stop = .status 0 := by
  unfold collectFiles at h
  split at h
  · cases h
  · obtain got | ⟨_, _, got, h⟩ := runFrom_bind_eq_error h
    · cases got
    cases got
    split at h
    · cases h
      rfl
    · obtain said | ⟨_, p₁, said, h⟩ := runFrom_bind_eq_error h
      · cases said
      obtain listed | ⟨_, p₂, listed, h⟩ := runFrom_bind_eq_error h
      · rw [runFrom_sayEach] at listed
        cases listed
      cases h

/-- A command that is refused for a failure has said nothing yet. -/
theorem setup_refused (h : runFrom (setup around a) p = (.error (.failure f), p')) :
    p'.output = p.output ∧ p'.happenings = p.happenings := by
  obtain configured | ⟨defaults, p₁, configured, h⟩ := runFrom_bind_eq_error h
  · exact quiet_configuration.left configured
  obtain ⟨said₁, happened₁⟩ := quiet_configuration.left configured
  rw [← said₁, ← happened₁]
  obtain logged | ⟨logging, p₂, logged, h⟩ := runFrom_bind_eq_error h
  · exact (quiet_setLogging _ _ _).left logged
  obtain ⟨said₂, happened₂⟩ := (quiet_setLogging _ _ _).left logged
  rw [← said₂, ← happened₂]
  obtain read | ⟨config, p₃, read, h⟩ := runFrom_bind_eq_error h
  · exact (Quiet.liftFailure _).left read
  obtain collected | ⟨paths, p₄, collected, h⟩ := runFrom_bind_eq_error h
  · cases collectFiles_error collected
  cases h

theorem setup_ok (h : runFrom (setup around a) p = (.ok s, p')) :
    p'.output = p.output ++ discovered p'.machine.tree a ∧ p'.happenings = p.happenings := by
  obtain ⟨defaults, p₁, configured, h⟩ := runFrom_bind_eq_ok h
  obtain ⟨logging, p₂, logged, h⟩ := runFrom_bind_eq_ok h
  obtain ⟨config, p₃, read, h⟩ := runFrom_bind_eq_ok h
  obtain ⟨paths, p₄, collected, h⟩ := runFrom_bind_eq_ok h
  cases h
  obtain ⟨said₁, happened₁⟩ := quiet_configuration.left configured
  obtain ⟨said₂, happened₂⟩ := (quiet_setLogging _ _ _).left logged
  obtain ⟨said₃, happened₃⟩ := (Quiet.liftFailure _).left read
  rw [collectFiles_ok collected]
  dsimp only
  constructor
  · rw [said₃, said₂, said₁]
  · rw [happened₃, happened₂, happened₁]

/-- A run of the request files shows its events, and nothing else of it. -/
theorem runFrom_runFiles (s : Setup) {result : Except Failure Results}
    (ran : runFrom (files p.machine.tree host s.config s.paths) p.machine.session =
      (result, t)) :
    ∃ p', runFrom (runFiles host s.config s.logging s.pretty s.paths) p =
        (result.mapError .failure, p') ∧
      p'.output = p.output ++ shownEvents s t.happenings ∧
      p'.happenings = p.happenings ++ t.happenings := by
  let p₁ : Progress σ := { p with
    machine := { p.machine with world := t.world, next := t.next }
    happenings := p.happenings ++ t.happenings }
  obtain ⟨p₂, shows, output, happened⟩ := Says.each (says_present s.logging s.pretty) t.happenings p₁
  rw [shownOf_eq] at output
  refine ⟨p₂, ?_, output, happened⟩
  have ran' : (files p.machine.tree host s.config s.paths).run
      ⟨p.machine.world, p.machine.next, false, []⟩ = (result, t) := ran
  rw [runFiles, runFrom_bind_ok (runFrom_get p)]
  dsimp only
  rw [ran']
  dsimp only
  rw [runFrom_bind_ok (runFrom_modify _ p), runFrom_bind_ok shows]
  cases result <;> rfl

theorem ending_failure (around : Surroundings) (p : Progress σ) (h : f.isReported = true) :
    Reported around f p.output p.happenings (ending around p (.error (.failure f))) := by
  cases f with
  | defect d => cases h
  | _ => exact ⟨rfl, rfl, ⟨p.errors, rfl⟩, rfl, rfl⟩

/-- The status of a command that has results says whether all went well and to the end. -/
theorem status_eq_zero_iff {tree : FileTree} {runs : List FileRun} {t t' : Session σ}
    (h : Ran tree host config paths t runs t') :
    (if !(Results.ofFiles runs).success || runs.any (·.cancelled) then 1 else 0) = 0 ↔
      (∀ run ∈ runs, ∀ c ∈ run.store.contexts, ∀ o, c.outcome = some o → o.success = true) ∧
        List.Forall₂ (Whole tree) paths runs := by
  rw [h.whole_iff, ← h.success_iff]
  simp

/-- A command that does not export and whose files have results sums them up and ends. -/
theorem runFrom_conclude (around : Surroundings) (s : Setup)
    (ran : runFrom (files p.machine.tree host s.config s.paths) p.machine.session =
      (.ok results, t)) :
    ∃ p', runFrom (conclude host around "" s) p =
        (.ok (if !results.success || results.files.any (·.cancelled) then 1 else 0), p') ∧
      p'.output = p.output ++ shownEvents s t.happenings ++ "" :: Report.summary results ∧
      p'.happenings = p.happenings ++ t.happenings := by
  obtain ⟨p₁, shows, output₁, happened₁⟩ := runFrom_runFiles s ran
  obtain ⟨p₂, sums, output₂, happened₂⟩ :=
    (says_say "").andThen (says_lines (Report.summary results)) p₁
  refine ⟨p₂, ?_, ?_, happened₂.trans happened₁⟩
  · rw [conclude, runFrom_bind_ok shows, ← bind_assoc, runFrom_bind_ok sums]
    rfl
  · rw [output₂, output₁]
    rfl

/-- What the configuration and the files of a command come to. -/
def comesTo (host : Host σ) (around : Surroundings) (m : Machine σ) (a : Arguments) :
    Option (Except Failure Results) :=
  match runFrom (setup around a) m.start with
  | (.error (.failure f), _) => some (.error f)
  | (.error (.status _), _) => none
  | (.ok s, p) =>
    if s.paths.isEmpty then none
    else some (runFrom (files p.machine.tree host s.config s.paths) p.machine.session).1

theorem Settles.reports {e : Ending} (h : Settles host around m a e)
    (fails : comesTo host around m a = some (.error f)) (reported : f.isReported = true) :
    ∃ lines hs, Reported around f lines hs e := by
  rw [comesTo] at fails
  split at fails
  case h_1 refused =>
    cases fails
    exact ⟨_, _, h.refused _ _ refused reported⟩
  case h_2 => cases fails
  case h_3 s p ready =>
    split at fails
    case isTrue => cases fails
    case isFalse some_path =>
      have failed : runFrom (files p.machine.tree host s.config s.paths) p.machine.session =
          (.error f, _) := Prod.ext_iff.2 ⟨Option.some.inj fails, rfl⟩
      exact ⟨_, _, h.failed s p f _ ready (by simpa using some_path) failed reported⟩

theorem Settles.concludes {e : Ending} (h : Settles host around m a e)
    (ends : comesTo host around m a = some (.ok results)) :
    ∃ tree s, Concluded around tree a s results e := by
  rw [comesTo] at ends
  split at ends
  case h_1 => cases ends
  case h_2 => cases ends
  case h_3 s p ready =>
    split at ends
    case isTrue => cases ends
    case isFalse some_path =>
      have ran : runFrom (files p.machine.tree host s.config s.paths) p.machine.session =
          (.ok results, _) := Prod.ext_iff.2 ⟨Option.some.inj ends, rfl⟩
      exact ⟨_, s, (h.concluded s p results _ ready (by simpa using some_path) ran).1⟩

def isReportedFailure : Except Failure Results → Bool
  | .error f => f.isReported
  | .ok _ => false

theorem exists_results {outcome : Option (Except Failure Results)}
    (h : outcome.any (·.isOk) = true) : ∃ results, outcome = some (.ok results) :=
  match outcome, h with
  | some (.ok results), _ => ⟨results, rfl⟩

theorem exists_reported {outcome : Option (Except Failure Results)}
    (h : outcome.any isReportedFailure = true) :
    ∃ f, outcome = some (.error f) ∧ f.isReported = true :=
  match outcome, h with
  | some (.error f), reported => ⟨f, rfl, reported⟩

end DotHttp.CommandLine
