import DotHttp.Proofs.CommandLine.Work

/-!
What status 0 says. A command that ends with it has run every file it was asked for, to its end and without a
failed request, unless it looked for files and found none: then it has run nothing, whatever files it was given.
-/

namespace DotHttp.Run

variable {σ : Type} {tree : FileTree} {host : Host σ} {config : RunConfig} {path : String} {paths : List String}
  {run : FileRun} {runs : List FileRun} {s s' : Session σ}

/-- A file that was read, and has a context for each of its requests, none with an outcome that is no success. -/
structure Clean (tree : FileTree) (path : String) (run : FileRun) : Prop where
  whole : Whole tree path run
  unfailed : ∀ c ∈ run.store.contexts, ∀ o, c.outcome = some o → o.success = true

theorem processing_mem {rs : List Request} {vars : List Variable} {ns : List Note}
    (h : prepare tree config path = (.ok (rs, vars), ns)) : .processing path rs.length ∈ ns := by
  unfold prepare at h
  generalize load tree [] path = loaded at h
  obtain ⟨f | rs', ns₁⟩ := loaded
  · cases h
  · generalize Environment.load tree path config.environment = read at h
    obtain ⟨f | vars', ns₂⟩ := read
    · cases h
    · cases h
      exact List.mem_append_right _ List.mem_cons_self

/-- A file with a result was noted to be run. -/
theorem processing_mem_of_wholeFile (h : runFrom (wholeFile tree host config path) s = (.ok run, s')) :
    ∃ n, .note (.processing path n) ∈ s'.happenings := by
  cases hp : prepare tree config path with
  | mk prepared ns =>
    cases prepared with
    | error f =>
      rw [wholeFile_of_failure hp] at h
      cases h
    | ok read =>
      obtain ⟨rs, vars⟩ := read
      have steps : runFrom (requests host config vars none path rs) _ = _ := requests_of_wholeFile hp s
      obtain ⟨es, s₁, hs, -, -, happened, -⟩ := requests_stops steps
      rw [h] at happened
      refine ⟨rs.length, ?_⟩
      rw [happened, Session.add]
      exact List.mem_append_left _ (List.mem_append_right _ (List.mem_map_of_mem (processing_mem hp)))

theorem Ran.happenings_ne_nil (h : Ran tree host config paths s runs s') (some : paths ≠ []) :
    s'.happenings ≠ [] := by
  cases h with
  | nil => exact (some rfl).elim
  | cons first rest =>
    obtain ⟨n, noted⟩ := processing_mem_of_wholeFile first
    obtain ⟨hs, happened, -⟩ := rest.happenings
    rw [happened]
    exact List.ne_nil_of_mem (List.mem_append_left hs noted)

theorem clean_iff : List.Forall₂ (Clean tree) paths runs ↔
    (∀ run ∈ runs, ∀ c ∈ run.store.contexts, ∀ o, c.outcome = some o → o.success = true) ∧
      List.Forall₂ (Whole tree) paths runs := by
  constructor
  · intro clean
    induction clean with
    | nil => simp
    | cons here _ ih => exact ⟨List.forall_mem_cons.2 ⟨here.unfailed, ih.1⟩, .cons here.whole ih.2⟩
  · rintro ⟨unfailed, whole⟩
    induction whole with
    | nil => exact .nil
    | cons here _ ih =>
      obtain ⟨first, rest⟩ := List.forall_mem_cons.1 unfailed
      exact .cons ⟨here, first⟩ (ih rest)

end DotHttp.Run

namespace DotHttp.CommandLine

open Run

variable {σ : Type} {host : Host σ} {around : Surroundings} {a : Arguments} {m : Machine σ} {args : List String}
  {p p' : Progress σ} {s : Setup} {n : Nat} {e : Ending} {directory : String}

/-- The machine when a command has settled what to run, or that there is nothing to run. -/
def Machine.settled (m : Machine σ) (around : Surroundings) (a : Arguments) : Machine σ :=
  (runFrom (setup around a) m.start).2.machine

/-- The files that are found, if files are looked for. -/
def found (tree : FileTree) (a : Arguments) : List String :=
  if a.discover then tree.filesEndingIn requestFileEnding "." else []

/-- Every file that a command was given or has found is run, to its end and without a failed request, and nothing
else happens. -/
def RunsAll (host : Host σ) (around : Surroundings) (m : Machine σ) (a : Arguments) (e : Ending) : Prop :=
  let m' := m.settled around a
  let paths := a.files ++ found m'.tree a
  ∃ config runs t, evaluate m.tree around.bindings a (Config.find m.tree a.config) = .ok config ∧
    Ran m'.tree host config paths m'.session runs t ∧ e.happenings = t.happenings ∧
    List.Forall₂ (Clean m'.tree) paths runs

theorem collectFiles_paths {paths : List String} (h : runFrom (collectFiles a) p = (.ok paths, p')) :
    paths = a.files ++ found p.machine.tree a ∧ (a.discover = true → found p.machine.tree a ≠ []) := by
  unfold collectFiles at h
  rw [found]
  cases hd : a.discover with
  | false =>
    rw [hd] at h
    cases h
    simp
  | true =>
    rw [hd] at h
    obtain ⟨_, _, got, h⟩ := runFrom_bind_eq_ok h
    cases got
    split at h
    · cases h
    · next some =>
      obtain ⟨_, p₁, -, h⟩ := runFrom_bind_eq_ok h
      obtain ⟨_, p₂, -, h⟩ := runFrom_bind_eq_ok h
      cases h
      exact ⟨rfl, fun _ => some⟩

theorem collectFiles_stopped {stop : Stop} (h : runFrom (collectFiles a) p = (.error stop, p')) :
    stop = .status 0 ∧ a.discover = true ∧ found p'.machine.tree a = [] := by
  have status := collectFiles_error h
  unfold collectFiles at h
  split at h
  case isTrue => cases h
  case isFalse looks =>
    have looks : a.discover = true := by simpa using looks
    refine ⟨status, looks, ?_⟩
    obtain got | ⟨_, _, got, h⟩ := runFrom_bind_eq_error h
    · cases got
    cases got
    split at h
    case h_1 none =>
      cases h
      rw [found, if_pos looks]
      exact none
    case h_2 =>
      obtain said | ⟨_, p₁, said, h⟩ := runFrom_bind_eq_error h
      · cases said
      obtain listed | ⟨_, p₂, listed, h⟩ := runFrom_bind_eq_error h
      · rw [runFrom_sayEach] at listed
        cases listed
      cases h

theorem setup_paths (h : runFrom (setup around a) p = (.ok s, p')) :
    s.paths = a.files ++ found p'.machine.tree a ∧ (a.discover = true → found p'.machine.tree a ≠ []) := by
  obtain ⟨ds, p₁, -, h⟩ := runFrom_bind_eq_ok h
  obtain ⟨logging, p₂, -, h⟩ := runFrom_bind_eq_ok h
  obtain ⟨config, p₃, -, h⟩ := runFrom_bind_eq_ok h
  obtain ⟨paths, p₄, collected, h⟩ := runFrom_bind_eq_ok h
  cases h
  have unchanged : p'.machine = p₃.machine := by rw [collectFiles_ok collected]
  rw [unchanged]
  exact collectFiles_paths collected

/-- Settling what to run ends with a status only where files are looked for and none is found, all else being
settled. -/
theorem setup_stopped (h : runFrom (setup around a) p = (.error (.status n), p')) :
    n = 0 ∧ a.discover = true ∧ found p'.machine.tree a = [] ∧ ∃ config,
      evaluate p.machine.tree around.bindings a (Config.find p.machine.tree a.config) = .ok config := by
  obtain refused | ⟨ds, p₁, configured, h⟩ := runFrom_bind_eq_error h
  · obtain ⟨f, failure⟩ := statusless_configuration _ _ _ refused
    cases failure
  obtain refused | ⟨logging, p₂, -, h⟩ := runFrom_bind_eq_error h
  · obtain ⟨f, failure⟩ := statusless_setLogging _ _ _ _ _ _ refused
    cases failure
  obtain refused | ⟨config, p₃, read, h⟩ := runFrom_bind_eq_error h
  · obtain ⟨f, failure⟩ := Statusless.liftFailure _ _ _ _ refused
    cases failure
  obtain stopped | ⟨paths, p₄, -, h⟩ := runFrom_bind_eq_error h
  · obtain ⟨status, looks, none⟩ := collectFiles_stopped stopped
    cases status
    refine ⟨rfl, looks, none, config, ?_⟩
    obtain ⟨document, defaults, loaded, resolved, rfl⟩ := configuration_ok configured
    rw [evaluate]
    simp only [bind_eq_ok_iff]
    exact ⟨document, loaded, defaults, resolved, liftFailure_ok read⟩
  · cases h

/-- A command is given files, and looks for more where there are none. -/
def Drops (around : Surroundings) (m : Machine σ) (a : Arguments) : Prop :=
  a.files ≠ [] ∧ a.discover = true ∧ found (m.settled around a).tree a = []

theorem Machine.settled_eq {result : Except Stop Setup} (h : runFrom (setup around a) m.start = (result, p)) :
    m.settled around a = p.machine := by
  rw [Machine.settled, h]

theorem not_drops_of_setup (ready : runFrom (setup around a) m.start = (.ok s, p)) : ¬ Drops around m a := by
  rintro ⟨-, looks, none⟩
  rw [Machine.settled_eq ready] at none
  exact (setup_paths ready).2 looks none

theorem not_runsAll_of_still (some : a.files ≠ []) (still : e.happenings = []) :
    ¬ RunsAll host around m a e := by
  rintro ⟨config, runs, t, -, ran, happened, -⟩
  exact ran.happenings_ne_nil (by simp [some]) (happened.symm.trans still)

/-- With no file to run, all are run when nothing has happened. -/
theorem runsAll_of_stopped (stopped : runFrom (setup around a) m.start = (.error (.status n), p))
    (nothing : a.files = []) (still : e.happenings = []) : RunsAll host around m a e := by
  have settled := Machine.settled_eq stopped
  obtain ⟨-, -, none, config, evaluated⟩ := setup_stopped stopped
  have no_path : a.files ++ found (m.settled around a).tree a = [] := by rw [settled, none, nothing]; rfl
  refine ⟨config, [], (m.settled around a).session, evaluated, ?_, still, ?_⟩
  · rw [no_path]
    exact .nil
  · rw [no_path]
    exact .nil

theorem runsAll_of_concluded (ready : runFrom (setup around a) m.start = (.ok s, p))
    (concluded : runFrom (conclude host around directory s) p = (.ok 0, p'))
    (happened : e.happenings = p'.happenings) : RunsAll host around m a e := by
  have settled := Machine.settled_eq ready
  generalize ran : runFrom (files p.machine.tree host s.config s.paths) p.machine.session = come
  obtain ⟨come, t⟩ := come
  obtain ⟨results, rfl, zero⟩ := conclude_ok ran concluded
  obtain ⟨runs, rfl, has_run⟩ := ran_of_files ran
  have before : p.happenings = [] := still_setup.left ready
  have evaluated := setup_evaluates ready
  refine ⟨s.config, runs, t, evaluated, ?_, ?_, ?_⟩
  · rw [settled, ← (setup_paths ready).1]
    exact has_run
  · rw [happened, conclude_happenings ran concluded, before]
    rfl
  · rw [settled, ← (setup_paths ready).1, clean_iff, ← status_eq_zero_iff has_run]
    exact zero.symm

instance (around : Surroundings) (m : Machine σ) (a : Arguments) : Decidable (Drops around m a) :=
  inferInstanceAs (Decidable (_ ∧ _ ∧ _))

/-- A directory with one request file, whose name does not end as that of a request file does. -/
def unfoundFile : FileTree where
  nodes := [(["smoke.rest"], .file "GET https://a\n".toUTF8.toList)]
  workingDirectory := []
  homeDirectory := []
  mount := ""
  nodup := by simp

/-- The same directory with a file that is found. -/
def foundFile : FileTree where
  nodes := (["a.http"], .file "GET https://b\n".toUTF8.toList) :: unfoundFile.nodes
  workingDirectory := []
  homeDirectory := []
  mount := ""
  nodup := by simp [unfoundFile]

end DotHttp.CommandLine
