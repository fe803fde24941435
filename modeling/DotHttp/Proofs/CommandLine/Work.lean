import DotHttp.Proofs.CommandLine.Ending
import DotHttp.Proofs.CommandLine.Settings

/-!
The work of a command as a whole, whether it exports or not: it settles what to run, runs that, and sums up.
Only the runs make anything happen, and only they and the summing up give a status of their own.
-/

namespace DotHttp.CommandLine

open Run

variable {σ α β : Type} {host : Host σ} {around : Surroundings} {a : Arguments} {p p' : Progress σ} {s : Setup}
  {stop : Stop} {directory : String} {result : Except Stop Nat} {n : Nat}

/-- Wherever these steps start and whatever they come to, nothing happens in them. -/
def Still (c : Command σ α) : Prop :=
  ∀ p, (runFrom c p).2.happenings = p.happenings

/-- Whatever these steps come to, it is no status. -/
def Statusless (c : Command σ α) : Prop :=
  ∀ p stop p', runFrom c p = (.error stop, p') → ∃ f, stop = .failure f

namespace Still

theorem left {c : Command σ α} (h : Still c) {result : Except Stop α} (ran : runFrom c p = (result, p')) :
    p'.happenings = p.happenings := by
  have kept := h p
  rwa [ran] at kept

theorem bind {c : Command σ α} {f : α → Command σ β} (h : Still c) (hf : ∀ a, Still (f a)) :
    Still (c >>= f) := by
  intro p
  have first := h p
  rw [runFrom_bind]
  generalize runFrom c p = ran at first ⊢
  obtain ⟨e | a, p₁⟩ := ran
  · exact first
  · exact (hf a p₁).trans first

end Still

theorem Quiet.still {c : Command σ α} (h : Quiet c) : Still c :=
  fun p => (h p).2

theorem Says.still {c : Command σ Unit} {lines : List String} (h : Says c lines) : Still c := by
  intro p
  obtain ⟨p', ran, -, happenings⟩ := h p
  rw [ran]
  exact happenings

theorem still_collectFiles : Still (collectFiles a : Command σ _) := by
  unfold collectFiles
  split
  · exact (Quiet.pure _).still
  · refine Quiet.get.still.bind fun p => ?_
    split
    · exact (says_say _).still.bind fun _ => (Quiet.throw _).still
    · refine (says_say _).still.bind fun _ => Still.bind ?_ fun _ => (Quiet.pure _).still
      exact (Says.each (fun path => says_say ("  " ++ path)) _).still

theorem still_setup : Still (setup around a : Command σ _) := by
  refine quiet_configuration.still.bind fun defaults => ?_
  refine (quiet_setLogging _ _ _).still.bind fun logging => ?_
  refine (Quiet.liftFailure _).still.bind fun config => ?_
  exact still_collectFiles.bind fun paths => (Quiet.pure _).still

theorem still_exportResults (logging : Logging) (pretty : Bool) (directory : String) (r : Results) :
    Still (exportResults around logging pretty directory r : Command σ _) := by
  refine Quiet.get.still.bind fun p => ?_
  split
  · exact (Quiet.throw _).still
  · refine (says_setTree _).still.bind fun _ => ?_
    refine (says_present _ _ _).still.bind fun _ => ?_
    exact (says_say _).still

namespace Statusless

theorem pure (a : α) : Statusless (Pure.pure a : Command σ α) := by
  rintro p stop p' ⟨⟩

theorem get : Statusless (MonadState.get : Command σ (Progress σ)) := by
  rintro p stop p' ⟨⟩

theorem machine (f : Progress σ → Machine σ) :
    Statusless (modify fun p => { p with machine := f p } : Command σ Unit) := by
  rintro p stop p' ⟨⟩

theorem bind {c : Command σ α} {f : α → Command σ β} (h : Statusless c) (hf : ∀ a, Statusless (f a)) :
    Statusless (c >>= f) := by
  intro p stop p' failed
  obtain first | ⟨a, p₁, -, later⟩ := runFrom_bind_eq_error failed
  · exact h p stop p' first
  · exact hf a p₁ stop p' later

theorem fail (f : Failure) : Statusless (CommandLine.fail f : Command σ α) := by
  rintro p stop p' failed
  cases failed
  exact ⟨f, rfl⟩

theorem liftFailure (result : Except Failure α) : Statusless (CommandLine.liftFailure result : Command σ α) := by
  cases result with
  | error f => exact .fail f
  | ok a => exact .pure a

end Statusless

theorem Says.statusless {c : Command σ Unit} {lines : List String} (h : Says c lines) : Statusless c := by
  intro p stop p' failed
  obtain ⟨p₁, ran, -⟩ := h p
  rw [ran] at failed
  cases failed

theorem statusless_configuration : Statusless (configuration around a : Command σ _) := by
  refine .bind .get fun p => ?_
  refine .bind (says_noteEarly _).statusless fun _ => ?_
  refine .bind (.liftFailure _) fun document => ?_
  refine .bind (.liftFailure _) fun defaults => ?_
  refine .bind (says_complaints _).statusless fun _ => ?_
  refine .bind (says_noteEarly _).statusless fun _ => ?_
  exact .pure _

theorem statusless_setLogging (stamp : String) (verbose : Bool) (name : Setting) :
    Statusless (setLogging stamp verbose name : Command σ _) := by
  refine .bind (.machine _) fun _ => ?_
  refine .bind .get fun p => ?_
  refine .bind (.liftFailure _) fun opened => ?_
  refine .bind (.machine _) fun _ => ?_
  exact .pure _

theorem statusless_exportResults (logging : Logging) (pretty : Bool) (directory : String) (r : Results) :
    Statusless (exportResults around logging pretty directory r : Command σ _) := by
  refine .bind .get fun p => ?_
  split
  · exact .fail _
  · refine .bind (says_setTree _).statusless fun _ => ?_
    refine .bind (says_present _ _ _).statusless fun _ => ?_
    exact (says_say _).statusless

/-- What is left to do when the files have run. -/
def sumUp (around : Surroundings) (directory : String) (s : Setup) (results : Results) : Command σ Nat := do
  say ""
  (Report.summary results).forM say
  if directory != "" then exportResults around s.logging s.pretty directory results
  pure (if !results.success || results.files.any (·.cancelled) then 1 else 0)

theorem conclude_eq (host : Host σ) (around : Surroundings) (directory : String) (s : Setup) :
    conclude host around directory s =
      runFiles host s.config s.logging s.pretty s.paths >>= sumUp around directory s := rfl

theorem still_sumUp (s : Setup) (results : Results) :
    Still (sumUp around directory s results : Command σ _) := by
  refine (says_say _).still.bind fun _ => ?_
  refine (says_lines _).still.bind fun _ => ?_
  dsimp only
  split
  · exact (still_exportResults _ _ _ _).bind fun _ => (Quiet.pure _).still
  · exact (Quiet.pure _).still

theorem statusless_sumUp (s : Setup) (results : Results) :
    Statusless (sumUp around directory s results : Command σ _) := by
  refine .bind (says_say _).statusless fun _ => ?_
  refine .bind (says_lines _).statusless fun _ => ?_
  dsimp only
  split
  · exact (statusless_exportResults _ _ _ _).bind fun _ => .pure _
  · exact .pure _

theorem sumUp_ok {results : Results} (h : runFrom (sumUp around directory s results) p = (.ok n, p')) :
    n = if !results.success || results.files.any (·.cancelled) then 1 else 0 := by
  obtain ⟨_, p₁, -, h⟩ := runFrom_bind_eq_ok h
  obtain ⟨_, p₂, -, h⟩ := runFrom_bind_eq_ok h
  dsimp only at h
  split at h
  · obtain ⟨_, p₃, -, h⟩ := runFrom_bind_eq_ok h
    cases h
    rfl
  · cases h
    rfl

/-- A command that concludes runs its files, and sums up if they have results. -/
theorem conclude_steps {come : Except Failure Results} {t : Session σ}
    (ran : runFrom (files p.machine.tree host s.config s.paths) p.machine.session = (come, t))
    (concluded : runFrom (conclude host around directory s) p = (result, p')) :
    ∃ p₁, p₁.happenings = p.happenings ++ t.happenings ∧
      ((∃ f, come = .error f ∧ result = .error (.failure f) ∧ p' = p₁) ∨
        ∃ results, come = .ok results ∧ runFrom (sumUp around directory s results) p₁ = (result, p')) := by
  obtain ⟨p₁, shows, -, happened⟩ := runFrom_runFiles s ran
  refine ⟨p₁, happened, ?_⟩
  rw [conclude_eq] at concluded
  cases come with
  | error f =>
    rw [runFrom_bind_error shows] at concluded
    cases concluded
    exact .inl ⟨f, rfl, rfl, rfl⟩
  | ok results =>
    rw [runFrom_bind_ok shows] at concluded
    exact .inr ⟨results, rfl, concluded⟩

/-- All that happens when a command concludes happens in the runs of its files. -/
theorem conclude_happenings {come : Except Failure Results} {t : Session σ}
    (ran : runFrom (files p.machine.tree host s.config s.paths) p.machine.session = (come, t))
    (concluded : runFrom (conclude host around directory s) p = (result, p')) :
    p'.happenings = p.happenings ++ t.happenings := by
  obtain ⟨p₁, happened, ⟨f, -, -, rfl⟩ | ⟨results, -, summed⟩⟩ := conclude_steps ran concluded
  · exact happened
  · exact ((still_sumUp s results).left summed).trans happened

/-- A command that concludes with a status has results, and its status is that of its results. -/
theorem conclude_ok {come : Except Failure Results} {t : Session σ}
    (ran : runFrom (files p.machine.tree host s.config s.paths) p.machine.session = (come, t))
    (concluded : runFrom (conclude host around directory s) p = (.ok n, p')) :
    ∃ results, come = .ok results ∧
      n = if !results.success || results.files.any (·.cancelled) then 1 else 0 := by
  obtain ⟨p₁, -, ⟨f, -, failed, -⟩ | ⟨results, has_results, summed⟩⟩ := conclude_steps ran concluded
  · cases failed
  · exact ⟨results, has_results, sumUp_ok summed⟩

theorem statusless_conclude (s : Setup) : Statusless (conclude host around directory s) := by
  intro p stop p' concluded
  obtain ⟨p₁, -, ⟨f, -, failed, -⟩ | ⟨results, -, summed⟩⟩ := conclude_steps (Prod.eta _).symm concluded
  · cases failed
    exact ⟨f, rfl⟩
  · exact statusless_sumUp s results p₁ stop p' summed

variable {m : Machine σ} {args : List String}

/-- A command that reads its arguments works, stops where settling stops, or says how it is used, or concludes. -/
theorem work_steps (worked : runFrom (work host around a) m.start = (result, p')) :
    (∃ stop, result = .error stop ∧ runFrom (setup around a) m.start = (.error stop, p')) ∨
      ∃ s p, runFrom (setup around a) m.start = (.ok s, p) ∧
        ((s.paths = [] ∧ result = .ok 1 ∧ p'.happenings = []) ∨
          s.paths ≠ [] ∧ runFrom (conclude host around (a.exportTo.getD "") s) p = (result, p')) := by
  generalize ready : runFrom (setup around a) m.start = come
  obtain ⟨stop | s, p⟩ := come
  · rw [work, runFrom_bind_error ready] at worked
    cases worked
    exact .inl ⟨stop, rfl, rfl⟩
  · rw [work, runFrom_bind_ok ready] at worked
    refine .inr ⟨s, p, rfl, ?_⟩
    by_cases none : s.paths = []
    · rw [if_pos (by simpa using none)] at worked
      cases worked
      exact .inl ⟨none, rfl, still_setup.left ready⟩
    · rw [if_neg (by simpa using none)] at worked
      exact .inr ⟨none, worked⟩

theorem invoke_eq_ending (h : parse m.tree args = .ok (.run a)) :
    (invoke host around m args).1 =
      ending around (runFrom (work host around a) m.start).2 (runFrom (work host around a) m.start).1 := by
  rw [invoke, h]
  rfl

theorem happenings_ending (p : Progress σ) (result : Except Stop Nat) :
    (ending around p result).happenings = p.happenings := by
  obtain stop | n := result
  · cases stop with
    | status n => rfl
    | failure f => cases f <;> rfl
  · rfl

theorem ending_of_status_zero (h : (ending around p result).status = 0) :
    result = .ok 0 ∨ result = .error (.status 0) := by
  obtain stop | n := result
  · cases stop with
    | status n =>
      cases h
      exact .inr rfl
    | failure f => cases f <;> cases h
  · cases h
    exact .inl rfl

/-- Whatever happens in a command happens in the runs of the files that it has settled on. -/
theorem exists_setup {x : Happening} (among : x ∈ (invoke host around m args).1.happenings) :
    ∃ a s p, parse m.tree args = .ok (.run a) ∧ runFrom (setup around a) m.start = (.ok s, p) ∧
      x ∈ (runFrom (files p.machine.tree host s.config s.paths) p.machine.session).2.happenings := by
  cases h : parse m.tree args with
  | error fault =>
    rw [invoke, h] at among
    cases among
  | ok invocation =>
    cases invocation with
    | help =>
      rw [invoke, h] at among
      cases among
    | run a =>
      rw [invoke_eq_ending h, happenings_ending] at among
      obtain ⟨stop, -, refused⟩ | ⟨s, p, ready, ⟨-, -, still⟩ | ⟨-, concluded⟩⟩ := work_steps (Prod.eta _).symm
      · rw [still_setup.left refused] at among
        cases among
      · rw [still] at among
        cases among
      · rw [conclude_happenings (Prod.eta _).symm concluded, still_setup.left ready] at among
        exact ⟨a, s, p, rfl, ready, among⟩

end DotHttp.CommandLine
