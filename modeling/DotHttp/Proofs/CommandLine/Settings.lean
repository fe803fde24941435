import DotHttp.CommandLine
import DotHttp.Proofs.Duration
import DotHttp.Proofs.Steps

/-!
What the settings of a command come to. Durations and the number of jobs that are accepted are in
range, and a setting that is not accepted is a failure with a message, but for a few configurations,
which are told here.
-/

namespace DotHttp

variable {α β : Type} {P : α → Prop} {r : Except Failure α}

/-- A result with a property, or a failure that is reported. -/
def Settled (P : α → Prop) : Except Failure α → Prop
  | .ok a => P a
  | .error f => f.isReported = true

/-- A failure that is not reported. -/
def Escapes (r : Except Failure α) : Prop :=
  ∃ d, r = .error (.defect d)

theorem settled_iff_not_escapes (h : ∀ a, r = .ok a → P a) : Settled P r ↔ ¬ Escapes r := by
  cases r with
  | ok a =>
    refine iff_of_true (h a rfl) ?_
    rintro ⟨d, hd⟩
    cases hd
  | error f =>
    constructor
    · rintro reported ⟨d, hd⟩
      cases hd
      cases reported
    · intro unescaped
      cases f with
      | defect d => exact (unescaped ⟨d, rfl⟩).elim
      | _ => rfl

@[simp] theorem not_escapes_ok (a : α) : ¬ Escapes (.ok a : Except Failure α) :=
  fun ⟨_, hd⟩ => by cases hd

@[simp] theorem escapes_defect (d : Defect) : Escapes (.error (.defect d) : Except Failure α) :=
  ⟨d, rfl⟩

instance : Decidable (Escapes r) :=
  match r with
  | .ok a => .isFalse (not_escapes_ok a)
  | .error f => decidable_of_iff (f.isReported = false) (by
      cases f <;> simp [Failure.isReported, Escapes])

/-- Steps fail without a report at the first or, where that gives something, after it. -/
theorem escapes_bind_iff (x : Except Failure α) (f : α → Except Failure β) :
    Escapes (x >>= f) ↔ Escapes x ∨ ∃ a, x = .ok a ∧ Escapes (f a) := by
  cases x with
  | ok a =>
    have none : ¬ Escapes (.ok a : Except Failure α) := not_escapes_ok a
    simp [none, bind, Except.bind]
  | error e => simp [Escapes, bind, Except.bind]

/-- A duration that cannot even be refused: it has too many digits to be written or to be read. -/
def Setting.Unreadable (v : Setting) : Prop :=
  v.isWritable = false ∨ Duration.Overlong v.plainText.toList

/-- A duration that is accepted, where a bare number counts `bare` milliseconds. -/
def Setting.Counts (bare : Nat) (v : Setting) : Prop :=
  v = .null ∨ v.isWritable = true ∧ ∃ n, Duration.read v.plainText.toList bare = .ok (some n)

/-- A number of jobs that cannot even be refused: an infinite one, or one below 1 or of another kind
that has too many digits to be written. -/
def Setting.Uncountable (v : Setting) : Prop :=
  (∃ negative, v = .number (.infinite negative)) ∨
    v.isWritable = false ∧ ∀ n, v = .integer n → n < 1

namespace Config

theorem not_unreadable_null : ¬ Setting.null.Unreadable := by
  rintro (unwritable | overlong)
  · cases unwritable
  · obtain ⟨e, he⟩ := (Duration.read_error_iff _ 1).2 overlong
    cases he

theorem escapes_refusal_iff (key : String) (v : Setting) :
    Escapes (.error (refusal key v) : Except Failure α) ↔ v.isWritable = false := by
  rw [refusal]
  cases v.isWritable with
  | false => simp
  | true => simp [Escapes]

theorem duration_of_ne_null {v : Setting} (given : v ≠ .null) (key : String) (bare : Nat) :
    duration key v bare =
      if !v.isWritable then .error (.defect .tooManyDigits)
      else
        match Duration.read v.plainText.toList bare with
        | .error _ => .error (.defect .tooManyDigits)
        | .ok none => .error (refusal key v)
        | .ok (some n) => .ok (some n) := by
  unfold duration
  split
  · exact absurd rfl given
  · rfl

theorem duration_escapes_iff (key : String) (v : Setting) (bare : Nat) :
    Escapes (duration key v bare) ↔ v.Unreadable := by
  by_cases given : v = .null
  · subst given
    exact iff_of_false (not_escapes_ok _) not_unreadable_null
  rw [duration_of_ne_null given, Setting.Unreadable, ← Duration.read_error_iff _ bare]
  cases writable : v.isWritable with
  | false => simp
  | true =>
    cases Duration.read v.plainText.toList bare with
    | error e => simp
    | ok n => cases n <;> simp [escapes_refusal_iff, writable]

theorem duration_ok_iff (key : String) (v : Setting) (bare : Nat) :
    (∃ n, duration key v bare = .ok n) ↔ v.Counts bare := by
  by_cases given : v = .null
  · subst given
    exact iff_of_true ⟨none, rfl⟩ (.inl rfl)
  rw [duration_of_ne_null given, Setting.Counts, or_iff_right given]
  cases v.isWritable with
  | false => simp
  | true =>
    cases Duration.read v.plainText.toList bare with
    | error e => simp
    | ok n => cases n <;> simp

/-- A duration that is accepted is in range. -/
theorem duration_le {key : String} {v : Setting} {bare n : Nat}
    (h : duration key v bare = .ok (some n)) : n ≤ Duration.limit := by
  have given : v ≠ .null := by
    rintro rfl
    cases h
  rw [duration_of_ne_null given] at h
  split at h
  · cases h
  · split at h
    · cases h
    · cases h
    · cases h
      exact Duration.read_le ‹_›

/-- The number of jobs that a whole number says, if the setting stands for one. -/
def count (v : Setting) : Option Int → Except Failure Nat
  | some n => if 1 ≤ n then .ok n.toNat else .error (refusal "jobs" v)
  | none => .error (refusal "jobs" v)

theorem jobs_of_ne_null {v : Setting} (given : v ≠ .null) : jobs v = wholeNumber v >>= count v := by
  cases v with
  | null => exact absurd rfl given
  | _ => rfl

theorem count_escapes_iff (v : Setting) (number : Option Int) :
    Escapes (count v number) ↔ v.isWritable = false ∧ ∀ n, number = some n → n < 1 := by
  cases number with
  | none => simp [count, escapes_refusal_iff]
  | some n =>
    rw [count]
    split
    case isTrue enough => simpa using fun _ => enough
    case isFalse few => simp [escapes_refusal_iff, Int.not_le.1 few]

theorem wholeNumber_escapes_iff (v : Setting) :
    Escapes (wholeNumber v) ↔ ∃ negative, v = .number (.infinite negative) := by
  cases v with
  | number x => cases x <;> simp [wholeNumber]
  | _ => simp [wholeNumber]

theorem jobs_escapes_iff (v : Setting) : Escapes (jobs v) ↔ v.Uncountable := by
  by_cases given : v = .null
  · subst given
    refine iff_of_false (not_escapes_ok 1) ?_
    simp [Setting.Uncountable, Setting.isWritable]
  rw [jobs_of_ne_null given, escapes_bind_iff, wholeNumber_escapes_iff, Setting.Uncountable]
  simp only [count_escapes_iff]
  cases v with
  | integer n => simp [wholeNumber]
  | number x => simp [Setting.isWritable]
  | _ => simp [wholeNumber, Setting.isWritable]

theorem one_le_jobs {v : Setting} {n : Nat} (h : jobs v = .ok n) : 1 ≤ n := by
  by_cases given : v = .null
  · subst given
    cases h
    exact Nat.le_refl 1
  rw [jobs_of_ne_null given] at h
  obtain ⟨number, -, counted⟩ := bind_eq_ok_iff.1 h
  cases number with
  | none => cases counted
  | some k =>
    rw [count] at counted
    split at counted
    · cases counted
      omega
    · cases counted

/-- A file that is no text. -/
def Garbled (tree : FileTree) (path : String) : Prop :=
  ∃ loc bytes, tree.look path = .found loc (.file bytes) ∧ ∀ text, tree.readText path ≠ .ok text

theorem surroundings_escapes_iff (tree : FileTree) (around : EnvFile.Bindings) (envFile : Setting)
    (directory : String) : Escapes (surroundings tree around envFile directory) ↔
      envFile.isSet = true ∧
        ∀ name, envFile = .text name → Garbled tree (FileTree.join directory name) := by
  unfold surroundings
  cases set : envFile.isSet with
  | false => simp
  | true =>
    cases envFile with
    | text name =>
      simp only [Setting.text.injEq, forall_eq', true_and, Bool.not_true, Bool.false_eq_true,
        if_false, Garbled]
      cases tree.look (FileTree.join directory name) with
      | found loc node =>
        cases node with
        | directory => simp
        | file bytes => cases tree.readText (FileTree.join directory name) <;> simp
      | _ => simp
    | _ => simp

/-- Defaults with which resolving fails without a report. -/
inductive Unresolvable (tree : FileTree) (directory : String)
    (entries : List (Setting × Setting)) : Prop
  /-- The defaults are set, but no mapping. -/
  | defaults {d : Setting} (known : Setting.lookup entries "defaults" = some d)
      (set : d.isSet = true) (other : ∀ ds, d ≠ .mapping ds)
  /-- The environment file is set, but no text. -/
  | envFile {ds : List (Setting × Setting)} {v : Setting} (mapping : defaultsOf entries = .mapping ds)
      (known : Setting.lookup ds "env_file" = some v) (set : v.isSet = true)
      (other : ∀ name, v ≠ .text name)
  /-- The environment file has bytes that are no text. -/
  | garbled {ds : List (Setting × Setting)} {name : String}
      (mapping : defaultsOf entries = .mapping ds)
      (known : Setting.lookup ds "env_file" = some (.text name)) (set : name ≠ "")
      (garbled : Garbled tree (FileTree.join directory name))

theorem defaultsOf_ne_mapping_iff (entries : List (Setting × Setting)) :
    (∀ ds, defaultsOf entries ≠ .mapping ds) ↔
      ∃ d, Setting.lookup entries "defaults" = some d ∧ d.isSet = true ∧ ∀ ds, d ≠ .mapping ds := by
  rw [defaultsOf]
  cases Setting.lookup entries "defaults" with
  | none => simp
  | some d => cases set : d.isSet <;> simp [set]

theorem resolve_of_mapping {tree : FileTree} {directory : String}
    {entries ds : List (Setting × Setting)} (mapping : defaultsOf entries = .mapping ds)
    (around : EnvFile.Bindings) :
    Escapes (resolve tree around ⟨defaultsOf entries, some directory⟩) ↔
      Escapes (surroundings tree around ((Setting.lookup ds "env_file").getD .null) directory) := by
  simp [resolve, mapping, escapes_bind_iff]

theorem resolve_of_other {tree : FileTree} {directory : String} {entries : List (Setting × Setting)}
    (other : ∀ ds, defaultsOf entries ≠ .mapping ds) (around : EnvFile.Bindings) :
    Escapes (resolve tree around ⟨defaultsOf entries, some directory⟩) := by
  unfold resolve
  split
  case h_1 ds mapping => exact (other ds mapping).elim
  case h_2 => exact escapes_defect _

theorem resolve_escapes_iff (tree : FileTree) (around : EnvFile.Bindings) (directory : String)
    (entries : List (Setting × Setting)) :
    Escapes (resolve tree around ⟨defaultsOf entries, some directory⟩) ↔
      Unresolvable tree directory entries := by
  constructor
  · intro escapes
    by_cases mapped : ∃ ds, defaultsOf entries = .mapping ds
    · obtain ⟨ds, mapping⟩ := mapped
      obtain ⟨set, garbled⟩ :=
        (surroundings_escapes_iff _ _ _ _).1 ((resolve_of_mapping mapping around).1 escapes)
      cases known : Setting.lookup ds "env_file" with
      | none =>
        rw [known] at set
        cases set
      | some v =>
        rw [known, Option.getD_some] at set garbled
        by_cases text : ∃ name, v = .text name
        · obtain ⟨name, rfl⟩ := text
          exact .garbled mapping known (by simpa [Setting.isSet] using set) (garbled name rfl)
        · exact .envFile mapping known set (not_exists.1 text)
    · obtain ⟨d, known, set, other⟩ := (defaultsOf_ne_mapping_iff entries).1 (not_exists.1 mapped)
      exact .defaults known set other
  · intro unresolvable
    cases unresolvable with
    | defaults known set other =>
      exact resolve_of_other ((defaultsOf_ne_mapping_iff entries).2 ⟨_, known, set, other⟩) around
    | envFile mapping known set other =>
      rw [resolve_of_mapping mapping, surroundings_escapes_iff, known, Option.getD_some]
      exact ⟨set, fun name text => (other name text).elim⟩
    | garbled mapping known set garbled =>
      rw [resolve_of_mapping mapping, surroundings_escapes_iff, known, Option.getD_some]
      refine ⟨by simpa [Setting.isSet] using set, ?_⟩
      rintro _ ⟨⟩
      exact garbled

theorem pathExists_of_readText {tree : FileTree} {path text : String}
    (h : tree.readText path = .ok text) : tree.pathExists path = true := by
  have named : path ≠ "" := by
    rintro rfl
    cases h
  rw [FileTree.readText, FileTree.readBytes, if_neg named] at h
  rw [FileTree.pathExists]
  cases look : tree.look path with
  | found loc node => rfl
  | _ =>
    rw [look] at h
    cases h

def directoryOf (tree : FileTree) (path : String) : String :=
  tree.display (tree.resolve (FileTree.plainPath path)).dropLast

/-- A configuration file with a mapping is read. -/
theorem load_of_mapping {tree : FileTree} {path text : String} {entries : List (Setting × Setting)}
    (readable : tree.readText (FileTree.plainPath path) = .ok text)
    (document : Yaml.parse text.toList = .ok (.mapping entries)) :
    (load tree (some path)).1 = .ok ⟨defaultsOf entries, some (directoryOf tree path)⟩ := by
  have parsed : parseText (FileTree.plainPath path) text = .ok (defaultsOf entries) := by
    rw [parseText, document]
    cases entries <;> rfl
  simp only [load, pathExists_of_readText readable, readable, parsed]
  rfl

end Config

namespace CommandLine

/-- What the settings of a command come to, with the configuration at a path. -/
def evaluate (tree : FileTree) (around : EnvFile.Bindings) (a : Arguments) (path : Option String) :
    Except Failure RunConfig := do
  let document ← (Config.load tree path).1
  let defaults ← Config.resolve tree around document
  runConfig a defaults.entries

/-- Settings with which files can be run. -/
structure InRange (c : RunConfig) : Prop where
  delay : c.delay ≤ Duration.limit
  timeout : ∀ n, c.timeout = some n → n ≤ Duration.limit
  connectionTimeout : ∀ n, c.connectionTimeout = some n → n ≤ Duration.limit
  jobs : 1 ≤ c.jobs

/-- Of the settings, in their order, the first that is not accepted cannot even be refused. -/
def Stuck (a : Arguments) (ds : List (Setting × Setting)) : Prop :=
  let delay := pick (natFlag a.delay) ds "delay"
  let timeout := pick (textFlag a.timeout) ds "timeout"
  let connectionTimeout := pick (textFlag a.connectionTimeout) ds "connection_timeout"
  let jobs := pick (natFlag a.jobs) ds "jobs"
  delay.Unreadable ∨ delay.Counts 1 ∧ (timeout.Unreadable ∨ timeout.Counts 1000 ∧
    (connectionTimeout.Unreadable ∨ connectionTimeout.Counts 1000 ∧ jobs.Uncountable))

theorem runConfig_escapes_iff (a : Arguments) (ds : List (Setting × Setting)) :
    Escapes (runConfig a ds) ↔ Stuck a ds := by
  rw [runConfig, Stuck]
  simp only [escapes_bind_iff, not_escapes_ok, and_false, exists_false, or_false, exists_and_right,
    Config.duration_escapes_iff, Config.duration_ok_iff, Config.jobs_escapes_iff]

theorem runConfig_inRange {a : Arguments} {ds : List (Setting × Setting)} {c : RunConfig}
    (h : runConfig a ds = .ok c) : InRange c := by
  rw [runConfig] at h
  simp only [bind_eq_ok_iff] at h
  obtain ⟨delay, delayed, timeout, timed, connection, connected, jobs, counted, ends⟩ := h
  cases ends
  constructor
  case delay =>
    cases delay with
    | none => exact Nat.zero_le _
    | some n => exact Config.duration_le delayed
  case timeout =>
    rintro n rfl
    exact Config.duration_le timed
  case connectionTimeout =>
    rintro n rfl
    exact Config.duration_le connected
  case jobs => exact Config.one_le_jobs counted

theorem evaluate_inRange {tree : FileTree} {around : EnvFile.Bindings} {a : Arguments}
    {path : Option String} {c : RunConfig} (h : evaluate tree around a path = .ok c) :
    InRange c := by
  rw [evaluate] at h
  simp only [bind_eq_ok_iff] at h
  obtain ⟨document, -, defaults, -, read⟩ := h
  exact runConfig_inRange read

/-- A file with this text, alone in its directory. -/
def configured (text : String) : FileTree where
  nodes := [(["c.yaml"], .file text.toUTF8.toList)]
  workingDirectory := []
  homeDirectory := []
  mount := ""
  nodup := by simp

def isMapping : Except Yaml.Fault Setting → Bool
  | .ok (.mapping _) => true
  | _ => false

theorem exists_mapping {document : Except Yaml.Fault Setting} (h : isMapping document = true) :
    ∃ entries, document = .ok (.mapping entries) :=
  match document, h with
  | .ok (.mapping entries), _ => ⟨entries, rfl⟩

def infiniteJobs : String := "defaults:\n  jobs: .inf\n"

/-- Texts whose settings are in range, with an infinite number of jobs, with defaults that are a list,
and with a number for an environment file. -/
def settingTexts : List String :=
  ["defaults:\n  timeout: 500ms\n  jobs: $JOBS\n", infiniteJobs, "defaults:\n- jobs\n",
    "defaults:\n  env_file: 5\n"]

variable {σ : Type} {around : Surroundings} {a : Arguments} {p p' : Progress σ} {s : Setup}

theorem liftFailure_ok {α : Type} {result : Except Failure α} {x : α}
    (h : runFrom (liftFailure result) p = (.ok x, p')) : result = .ok x := by
  cases result with
  | error f => cases h
  | ok y =>
    cases h
    rfl

theorem configuration_ok {ds : List (Setting × Setting)}
    (h : runFrom (configuration around a) p = (.ok ds, p')) : ∃ document defaults,
      (Config.load p.machine.tree (Config.find p.machine.tree a.config)).1 = .ok document ∧
      Config.resolve p.machine.tree around.bindings document = .ok defaults ∧
      defaults.entries = ds := by
  obtain ⟨_, _, got, h⟩ := runFrom_bind_eq_ok h
  cases got
  obtain ⟨_, _, -, h⟩ := runFrom_bind_eq_ok h
  obtain ⟨document, _, loaded, h⟩ := runFrom_bind_eq_ok h
  obtain ⟨defaults, _, resolved, h⟩ := runFrom_bind_eq_ok h
  obtain ⟨_, _, -, h⟩ := runFrom_bind_eq_ok h
  obtain ⟨_, _, -, h⟩ := runFrom_bind_eq_ok h
  cases h
  exact ⟨document, defaults, liftFailure_ok loaded, liftFailure_ok resolved, rfl⟩

/-- The settings that a command runs with are those that its configuration comes to. -/
theorem setup_evaluates (h : runFrom (setup around a) p = (.ok s, p')) :
    evaluate p.machine.tree around.bindings a (Config.find p.machine.tree a.config) =
      .ok s.config := by
  obtain ⟨ds, p₁, configured, h⟩ := runFrom_bind_eq_ok h
  obtain ⟨logging, p₂, -, h⟩ := runFrom_bind_eq_ok h
  obtain ⟨config, p₃, read, h⟩ := runFrom_bind_eq_ok h
  obtain ⟨paths, p₄, -, h⟩ := runFrom_bind_eq_ok h
  cases h
  obtain ⟨document, defaults, loaded, resolved, rfl⟩ := configuration_ok configured
  rw [evaluate]
  simp only [bind_eq_ok_iff]
  exact ⟨document, loaded, defaults, resolved, liftFailure_ok read⟩

/-- A command that comes to run files runs them with settings in range. -/
theorem setup_inRange (h : runFrom (setup around a) p = (.ok s, p')) : InRange s.config :=
  evaluate_inRange (setup_evaluates h)

end CommandLine

end DotHttp
