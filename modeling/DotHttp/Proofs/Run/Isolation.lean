import DotHttp.Proofs.Run.Bookkeeping
import DotHttp.Proofs.Run.Cancellation
import DotHttp.Proofs.Run.Dispatching
import DotHttp.Proofs.Run.Expansion
import DotHttp.Proofs.Run.Interleaving

/-!
Files that are run together. Each comes to what it comes to by itself, whether they run one after the
other or take turns; of those that fail the first is the one reported.
-/

namespace DotHttp

variable {σ : Type}

def FileRun.sent (run : FileRun) : List Request :=
  (run.store.contexts.filter (·.outcome.isSome)).map (·.request)

namespace Run

/-- What a run of a file by itself comes to. -/
def alone (tree : FileTree) (host : Host σ) (config : RunConfig) (s : Session σ) (path : String) :
    Except Failure FileRun :=
  (runFrom (wholeFile tree host config path) s).1

/-- Between two sessions exactly these requests were sent, and every log of the host says so. -/
def Sent (host : Host σ) (s s' : Session σ) (rs : List Request) : Prop :=
  ∃ hs, s'.happenings = s.happenings ++ hs ∧ Happening.sends hs = rs ∧
    ∀ log, host.Logs log → log s'.world = log s.world ++ rs

/-- What files come to together, with any number of jobs and however their runs take turns. -/
structure Together (tree : FileTree) (host : Host σ) (config : RunConfig) (paths : List String)
    (s : Session σ) (result : Except Failure Results) : Prop where
  files : ∀ jobs, (runFrom (files tree host { config with jobs } paths) s).1 = result
  interleaved : ∀ schedule outcome,
    answer? (interleave tree host config schedule (unread paths) s).1 = some outcome →
      outcome.map Results.ofFiles = result
  /-- Runs that have had the turns they need leave something to say. -/
  answered : ∀ schedule,
    (∀ i path, paths[i]? = some path →
      Stage.unread.left tree config path ≤ schedule.countP (·.index = i)) →
    ∃ outcome, answer? (interleave tree host config schedule (unread paths) s).1 = some outcome

variable {tree : FileTree} {host : Host σ} {config : RunConfig} {path : String}
  {answer : Request → Bool → Except TransportFault Outcome} {s s' : Session σ}
  {paths : List String} {runs : List FileRun} {run : FileRun} {f : Failure}

theorem collect_of_forall₂ {results : List (Except Failure FileRun)}
    (h : List.Forall₂ (fun result run => result = .ok run) results runs) :
    collect results = .ok runs := by
  induction h with
  | nil => rfl
  | cons here _ ih => rw [here, collect, ih]; rfl

theorem collect_of_error {results rest : List (Except Failure FileRun)}
    (h : List.Forall₂ (fun result run => result = .ok run) results runs) :
    collect (results ++ .error f :: rest) = .error f := by
  induction h with
  | nil => rfl
  | cons here _ ih => rw [here, List.cons_append, collect, ih]; rfl

theorem requestsFrom_jobs (jobs : Nat) (vars : List Variable) (total : Nat) (events : Option Nat)
    (index : Nat) (rs : List Request) :
    requestsFrom host { config with jobs } vars total events run index rs =
      requestsFrom host config vars total events run index rs := by
  induction rs generalizing events run index with
  | nil => rfl
  | cons r rest ih =>
    simp only [requestsFrom, ih]
    rfl

theorem wholeFile_jobs (jobs : Nat) (path : String) :
    wholeFile tree host { config with jobs } path = wholeFile tree host config path := by
  unfold wholeFile file requests
  simp only [requestsFrom_jobs]

theorem inSequence_jobs (jobs : Nat) (paths : List String) :
    inSequence tree host { config with jobs } paths = inSequence tree host config paths := by
  induction paths with
  | nil => rfl
  | cons path rest ih => rw [inSequence, inSequence, wholeFile_jobs, ih]

theorem independently_jobs (jobs : Nat) (paths : List String) :
    independently tree host { config with jobs } paths = independently tree host config paths := by
  induction paths with
  | nil => rfl
  | cons path rest ih => rw [independently, independently, wholeFile_jobs, ih]

theorem runFrom_attempt {α : Type} (steps : Running σ α) (s : Session σ) :
    runFrom (attempt steps) s = (.ok (runFrom steps s).1, (runFrom steps s).2) := rfl

/-- With several jobs every file runs, and else those up to the first that fails. -/
theorem runFrom_files (jobs : Nat) :
    runFrom (files tree host { config with jobs } paths) s =
      if 1 < jobs ∧ 1 < paths.length then
        match runFrom (independently tree host config paths) s with
        | (.ok results, s') => ((collect results).map Results.ofFiles, s')
        | (.error f, s') => (.error f, s')
      else
        match runFrom (inSequence tree host config paths) s with
        | (result, s') => (result.map Results.ofFiles, s') := by
  unfold files
  simp only [Bool.and_eq_true, decide_eq_true_eq, independently_jobs, inSequence_jobs]
  split
  · rw [runFrom_bind]
    obtain ⟨f | results, s'⟩ := runFrom (independently tree host config paths) s
    · rfl
    · dsimp only
      cases collect results <;> rfl
  · rw [runFrom_bind]
    obtain ⟨f | runs, s'⟩ := runFrom (inSequence tree host config paths) s <;> rfl

section

variable (constant : host.Constant answer)

include constant

theorem runFrom_independently (active : s.cancelled = false)
    (steady : ∀ path ∈ paths, Stage.unread.steady tree answer config path = true) :
    ∃ s', runFrom (independently tree host config paths) s =
      (.ok (outcomes tree answer config (unread paths)), s') := by
  induction paths generalizing s with
  | nil => exact ⟨s, rfl⟩
  | cons path rest ih =>
    obtain ⟨here, later⟩ := List.forall_mem_cons.1 steady
    obtain ⟨first, active₁⟩ := wholeFile_outcome constant active here
    obtain ⟨s', rest_runs⟩ := ih active₁ later
    refine ⟨s', ?_⟩
    rw [independently, runFrom_bind_ok (runFrom_attempt _ s), runFrom_bind_ok rest_runs,
      runFrom_pure, first]
    rfl

theorem runFrom_inSequence (active : s.cancelled = false)
    (steady : ∀ path ∈ paths, Stage.unread.steady tree answer config path = true) :
    (runFrom (inSequence tree host config paths) s).1 =
      collect (outcomes tree answer config (unread paths)) := by
  induction paths generalizing s with
  | nil => rfl
  | cons path rest ih =>
    obtain ⟨here, later⟩ := List.forall_mem_cons.1 steady
    obtain ⟨first, active₁⟩ := wholeFile_outcome constant active here
    have rest_runs := ih active₁ later
    have split : outcomes tree answer config (unread (path :: rest)) =
        (runFrom (wholeFile tree host config path) s).1 ::
          outcomes tree answer config (unread rest) := by
      rw [first]
      rfl
    rw [split, inSequence, runFrom_bind]
    generalize runFrom (wholeFile tree host config path) s = ran at rest_runs ⊢
    obtain ⟨f | run, s₁⟩ := ran
    · rfl
    · dsimp only at rest_runs ⊢
      rw [collect, ← rest_runs, runFrom_bind]
      obtain ⟨f | runs, s₂⟩ := runFrom (inSequence tree host config rest) s₁ <;> rfl

theorem together (active : s.cancelled = false)
    (steady : ∀ path ∈ paths, Stage.unread.steady tree answer config path = true) :
    Together tree host config paths s
      ((collect (outcomes tree answer config (unread paths))).map Results.ofFiles) := by
  have waiting : ∀ run ∈ unread paths, run.2.steady tree answer config run.1 = true := by
    intro run hr
    obtain ⟨path, hp, rfl⟩ := List.mem_map.1 hr
    exact steady path hp
  constructor
  case files =>
    intro jobs
    rw [runFrom_files]
    split
    · obtain ⟨s', ran⟩ := runFrom_independently constant active steady
      rw [ran]
    · have ran := runFrom_inSequence constant active steady
      rw [← ran]
  case interleaved =>
    intro schedule outcome said
    rw [answer?_eq_collect said, interleave_outcomes constant active waiting]
  case answered =>
    intro schedule enough
    exact exists_answer (interleave_ends enough)

end

theorem Sent.trans {s₁ : Session σ} {rs rs' : List Request} (h : Sent host s s₁ rs)
    (h' : Sent host s₁ s' rs') : Sent host s s' (rs ++ rs') := by
  obtain ⟨hs, happened, sends, logged⟩ := h
  obtain ⟨hs', happened', sends', logged'⟩ := h'
  refine ⟨hs ++ hs', ?_, ?_, ?_⟩
  · rw [happened', happened, List.append_assoc]
  · rw [Happening.sends_append, sends, sends']
  · intro log hl
    rw [logged' log hl, logged log hl, List.append_assoc]

theorem sent_notes (ns : List Note) : Sent host s (s.add (ns.map .note)) [] :=
  ⟨ns.map .note, rfl, (Happening.quiet_notes ns).sends, fun _ _ => (List.append_nil _).symm⟩

/-- A run of a file with a result could read it, and stands where its requests have brought it. -/
theorem stopped_of_wholeFile (h : runFrom (wholeFile tree host config path) s = (.ok run, s')) :
    ∃ rs, ∃ ns : List Note, ∃ es s₁, Reached host config.insecure rs (s.add (ns.map .note)) es s₁ ∧
      Stopped path rs es s₁ (.ok (some run)) s' ∧ Sent host s s' run.sent := by
  cases hp : prepare tree config path with
  | mk prepared ns =>
    cases prepared with
    | error f =>
      rw [wholeFile_of_failure hp] at h
      cases h
    | ok read =>
      obtain ⟨rs, vars⟩ := read
      obtain ⟨es, s₁, hs, reached, stopped, happened, -, sends⟩ := wholeFile_stops host hp s
      rw [h] at stopped happened
      have sent : Happening.sends hs = run.sent := by
        rw [FileRun.sent, stopped.contexts, ← flatMap_sent, Happening.sends_eq_flatten, sends,
          List.append_nil, List.flatMap_def]
      refine ⟨rs, ns, es, s₁, reached, stopped, hs, happened, sent, ?_⟩
      intro log hl
      rw [stopped.world, reached.logged_sends hl sends, sent]
      rfl

theorem Recorded.failed_iff {n i : Nat} {r : Request} {e : Event} {c : Context}
    (h : Recorded n i r e c) :
    e.status ≠ .failed ↔ ∀ o, c.outcome = some o → o.success = true := by
  constructor
  · intro unfailed o ho
    cases hs : e.status with
    | failed => exact (unfailed hs).elim
    | succeeded =>
      obtain ⟨o', ho', success⟩ := h.succeeded.2 hs
      cases ho.symm.trans ho'
      exact success
    | skipped =>
      rw [h.skipped.2 hs] at ho
      cases ho
  · intro fine failed
    cases ho : c.outcome with
    | none => exact absurd (failed.symm.trans (h.skipped.1 ho)) (by decide)
    | some o => exact absurd (failed.symm.trans (h.succeeded.1 ⟨o, ho, fine o ho⟩)) (by decide)

theorem failed_eq_zero_iff (h : runFrom (wholeFile tree host config path) s = (.ok run, s')) :
    run.failed = 0 ↔ ∀ c ∈ run.store.contexts, ∀ o, c.outcome = some o → o.success = true := by
  obtain ⟨rs, ns, es, s₁, reached, stopped, -⟩ := stopped_of_wholeFile h
  have recorded : ∀ e ∈ es, ∃ i r, Recorded rs.length i r e e.context := by
    intro e he
    obtain ⟨i, hi⟩ := List.getElem?_of_mem he
    obtain ⟨r, s₂, s₃, -, passed⟩ := reached.history hi
    exact ⟨i, r, passed.recorded⟩
  have counted : run.failed = es.countP (·.status = .failed) := by
    rw [stopped.run_eq, FileRun.ofEvents_eq]
  rw [counted, stopped.contexts, List.countP_eq_zero, List.forall_mem_map]
  constructor
  · intro unfailed e he
    obtain ⟨i, r, told⟩ := recorded e he
    exact told.failed_iff.1 (by simpa using unfailed e he)
  · intro fine e he
    obtain ⟨i, r, told⟩ := recorded e he
    simpa using told.failed_iff.2 (fine e he)

def Runs (tree : FileTree) (host : Host σ) (config : RunConfig) (s : Session σ) :
    List String → List FileRun → Prop :=
  List.Forall₂ fun path run => alone tree host config s path = .ok run

theorem Runs.success_iff (each : Runs tree host config s paths runs) :
    (Results.ofFiles runs).success = true ↔
      ∀ run ∈ runs, ∀ c ∈ run.store.contexts, ∀ o, c.outcome = some o → o.success = true := by
  induction each with
  | nil => simp [Results.ofFiles]
  | @cons path run paths runs here _ ih =>
    have ran : runFrom (wholeFile tree host config path) s =
        (.ok run, (runFrom (wholeFile tree host config path) s).2) := by
      rw [← here, alone]
    rw [List.forall_mem_cons, ← ih, ← failed_eq_zero_iff ran]
    simp [Results.ofFiles]

section

variable (constant : host.Constant answer) (active : s.cancelled = false)

include constant active

/-- By itself a file comes to the same from any session, and whatever chance and time hold for it. -/
theorem alone_eq {t : Session σ} (ready : t.cancelled = false) (sources : Sources)
    (steady : Stage.unread.steady tree answer config path = true) :
    alone tree { host with sources } config t path = alone tree host config s path := by
  have here := (wholeFile_outcome constant active steady).1
  have there := (wholeFile_outcome (constant.with_sources sources) ready steady).1
  exact there.trans here.symm

theorem outcomes_eq_alone
    (steady : ∀ path ∈ paths, Stage.unread.steady tree answer config path = true) :
    outcomes tree answer config (unread paths) = paths.map (alone tree host config s) := by
  rw [outcomes, unread, List.map_map]
  apply List.map_congr_left
  intro path hp
  exact (wholeFile_outcome constant active (steady path hp)).1.symm

theorem Runs.elsewhere {t : Session σ} (ready : t.cancelled = false)
    (steady : ∀ path ∈ paths, Stage.unread.steady tree answer config path = true)
    (each : Runs tree host config s paths runs) : Runs tree host config t paths runs := by
  induction each with
  | nil => exact .nil
  | cons here _ ih =>
    obtain ⟨first, later⟩ := List.forall_mem_cons.1 steady
    have there := alone_eq constant active ready host.sources first
    exact .cons (there.trans here) (ih later)

theorem together_of_runs
    (steady : ∀ path ∈ paths, Stage.unread.steady tree answer config path = true)
    (each : Runs tree host config s paths runs) :
    Together tree host config paths s (.ok (.ofFiles runs)) := by
  have collected : collect (outcomes tree answer config (unread paths)) = .ok runs := by
    rw [outcomes_eq_alone constant active steady]
    exact collect_of_forall₂ (List.forall₂_map_left_iff.2 each)
  have whole := together constant active steady
  rwa [collected] at whole

theorem together_of_failure {before after : List String} {bad : String}
    (steady : ∀ path ∈ before ++ bad :: after,
      Stage.unread.steady tree answer config path = true)
    (each : Runs tree host config s before runs)
    (by_itself : alone tree host config s bad = .error f) :
    Together tree host config (before ++ bad :: after) s (.error f) := by
  have collected :
      collect (outcomes tree answer config (unread (before ++ bad :: after))) = .error f := by
    rw [outcomes_eq_alone constant active steady, List.map_append, List.map_cons, by_itself]
    exact collect_of_error (List.forall₂_map_left_iff.2 each)
  have whole := together constant active steady
  rwa [collected] at whole

/-- Files up to one that cannot be read send what they send by themselves, and that is the end. -/
theorem inSequence_stops {before : List String} {bad : String} {ns : List Note}
    (after : List String)
    (steady : ∀ path ∈ before, Stage.unread.steady tree answer config path = true)
    (each : Runs tree host config s before runs)
    (fails : prepare tree config bad = (.error f, ns)) :
    Sent host s (runFrom (inSequence tree host config (before ++ bad :: after)) s).2
      (runs.flatMap FileRun.sent) := by
  induction before generalizing runs s with
  | nil =>
    cases each
    have stops : runFrom (inSequence tree host config (bad :: after)) s =
        (.error f, s.add (ns.map .note)) := runFrom_bind_error (wholeFile_of_failure fails) _
    rw [List.nil_append, stops]
    exact sent_notes ns
  | cons path before ih =>
    cases each with
    | @cons _ run _ runs here rest =>
      obtain ⟨first, later⟩ := List.forall_mem_cons.1 steady
      obtain ⟨-, active₁⟩ := wholeFile_outcome constant active first
      have ran : runFrom (wholeFile tree host config path) s =
          (.ok run, (runFrom (wholeFile tree host config path) s).2) := by
        rw [← here, alone]
      obtain ⟨-, -, -, -, -, -, sent⟩ := stopped_of_wholeFile ran
      have goes_on := ih active₁ later (Runs.elsewhere constant active active₁ later rest)
      rw [List.cons_append, inSequence, runFrom_bind_ok ran, runFrom_bind, List.flatMap_cons]
      generalize runFrom (inSequence tree host config (before ++ bad :: after)) _ = ran at goes_on ⊢
      obtain ⟨f | runs, s₂⟩ := ran
      · exact sent.trans goes_on
      · exact sent.trans goes_on

end

/-- Files that are run together come to what they come to by themselves. -/
structure Isolated (tree : FileTree) (host : Host σ) (config : RunConfig) (paths : List String)
    (s : Session σ) : Prop where
  /-- Neither what came before nor chance and time matter to a file by itself. -/
  alike : ∀ path ∈ paths, ∀ (t : Session σ) (sources : Sources), t.cancelled = false →
    alone tree { host with sources } config t path = alone tree host config s path
  results : ∀ runs, Runs tree host config s paths runs →
    Together tree host config paths s (.ok (.ofFiles runs)) ∧
      ((Results.ofFiles runs).success = true ↔
        ∀ run ∈ runs, ∀ c ∈ run.store.contexts, ∀ o, c.outcome = some o → o.success = true)
  permuted : ∀ paths' runs, paths'.Perm paths → Runs tree host config s paths runs →
    ∃ runs', runs'.Perm runs ∧ Runs tree host config s paths' runs' ∧
      Together tree host config paths' s (.ok (.ofFiles runs'))
  /-- The first file that fails by itself is the one reported. -/
  failure : ∀ before bad after runs f, paths = before ++ bad :: after →
    Runs tree host config s before runs → alone tree host config s bad = .error f →
      Together tree host config paths s (.error f)
  /-- If that file cannot be read, one job at a time sends nothing but what the files before send. -/
  unreadable : ∀ before bad after runs f, paths = before ++ bad :: after →
    Runs tree host config s before runs → (prepare tree config bad).1 = .error f →
      Together tree host config paths s (.error f) ∧
        ∀ jobs ≤ 1, Sent host s (runFrom (files tree host { config with jobs } paths) s).2
          (runs.flatMap FileRun.sent)

/-- With a transport whose answer depends on the request alone, and nobody asking for cancellation,
files that call no function of chance or time are isolated from each other. -/
theorem files_isolated (constant : host.Constant answer) (active : s.cancelled = false)
    (calm : ∀ path ∈ paths, SteadyFile tree host config path s) :
    Isolated tree host config paths s := by
  have steady : ∀ path ∈ paths, Stage.unread.steady tree answer config path = true := by
    intro path hp
    exact (steadyFile_iff constant active).1 (calm path hp)
  constructor
  case alike =>
    intro path hp t sources ready
    exact alone_eq constant active ready sources (steady path hp)
  case results =>
    intro runs each
    exact ⟨together_of_runs constant active steady each, each.success_iff⟩
  case permuted =>
    intro paths' runs perm each
    obtain ⟨runs', each', perm'⟩ := List.perm_comp_forall₂ perm each
    have steady' : ∀ path ∈ paths', Stage.unread.steady tree answer config path = true := by
      intro path hp
      exact steady path (perm.mem_iff.1 hp)
    exact ⟨runs', perm', each', together_of_runs constant active steady' each'⟩
  case failure =>
    intro before bad after runs f split each by_itself
    subst split
    exact together_of_failure constant active steady each by_itself
  case unreadable =>
    intro before bad after runs f split each fails
    subst split
    have prepared : prepare tree config bad = (.error f, (prepare tree config bad).2) := by
      rw [← fails]
    have by_itself : alone tree host config s bad = .error f := by
      rw [alone, wholeFile_of_failure prepared]
    refine ⟨together_of_failure constant active steady each by_itself, ?_⟩
    intro jobs single
    have earlier : ∀ path ∈ before, Stage.unread.steady tree answer config path = true := by
      intro path hp
      exact steady path (List.mem_append_left _ hp)
    have sent := inSequence_stops constant active after earlier each prepared
    rw [runFrom_files, if_neg (by omega)]
    exact sent

theorem Runs.of_isOk (h : ∀ path ∈ paths, (alone tree host config s path).isOk = true) :
    ∃ runs, Runs tree host config s paths runs := by
  induction paths with
  | nil => exact ⟨[], .nil⟩
  | cons path rest ih =>
    obtain ⟨here, later⟩ := List.forall_mem_cons.1 h
    obtain ⟨runs, each⟩ := ih later
    cases ha : alone tree host config s path with
    | error f =>
      rw [ha] at here
      cases here
    | ok run => exact ⟨run :: runs, .cons ha each⟩

/-- A file whose second request takes its path from the answer to the first, and one of one request. -/
def twoFiles : FileTree where
  nodes := [(["a.http"], .file followedText.toUTF8.toList),
    (["b.http"], .file "GET https://c".toUTF8.toList)]
  workingDirectory := []
  homeDirectory := []
  mount := ""
  nodup := by decide

def sameBody (body : String) : Request → Bool → Except TransportFault Outcome :=
  fun _ _ => .ok ⟨200, true, 0, none, none, none, some body, []⟩

theorem constant_ofBody (body : String) :
    ((Script.ofBody body).host fun _ => true).Constant (sameBody body) :=
  ⟨fun _ _ _ => rfl, fun _ _ _ => rfl, fun _ _ => rfl⟩

theorem files_isolated_around_missing :
    let host := (Script.ofBody "x").host fun _ => true
    let paths := ["b.http", "a.http", "b.http"]
    let gone := ["a.http", "gone.http", "b.http"]
    host.Constant (sameBody "x") ∧ Session.fresh.cancelled = false ∧
      (∀ path ∈ paths ++ gone, SteadyFile twoFiles host .default path .fresh) ∧
      Isolated twoFiles host .default paths .fresh ∧
      Isolated twoFiles host .default gone .fresh ∧
      (∃ runs, Runs twoFiles host .default .fresh paths runs) ∧
      (∃ runs, Runs twoFiles host .default .fresh ["a.http"] runs) ∧
      (prepare twoFiles .default "gone.http").1.isOk = false := by
  intro host paths gone
  have constant : host.Constant (sameBody "x") := constant_ofBody "x"
  have each_calm : ∀ path ∈ ["a.http", "b.http", "gone.http"],
      SteadyFile twoFiles host .default path .fresh := by
    have steady : ∀ path ∈ ["a.http", "b.http", "gone.http"],
        Stage.unread.steady twoFiles (sameBody "x") .default path = true := by decide +kernel
    intro path hp
    exact (steadyFile_iff constant rfl).2 (steady path hp)
  have calm : ∀ path ∈ paths ++ gone, SteadyFile twoFiles host .default path .fresh := by
    intro path hp
    have known : paths ++ gone ⊆ ["a.http", "b.http", "gone.http"] := by decide
    exact each_calm path (known hp)
  have ran : ∀ path ∈ ["a.http", "b.http"],
      (alone twoFiles host .default .fresh path).isOk = true := by decide +kernel
  refine ⟨constant, rfl, calm, ?_, ?_, ?_, ?_, ?_⟩
  · exact files_isolated constant rfl fun path hp => calm path (List.mem_append_left _ hp)
  · exact files_isolated constant rfl fun path hp => calm path (List.mem_append_right _ hp)
  · have known : paths ⊆ ["a.http", "b.http"] := by decide
    exact Runs.of_isOk fun path hp => ran path (known hp)
  · have known : ["a.http"] ⊆ ["a.http", "b.http"] := by decide
    exact Runs.of_isOk fun path hp => ran path (known hp)
  · decide +kernel

/-- Whether no function of chance or time is called in a text. -/
def withoutChance (text : String) : Bool :=
  Function.all.all fun f => f.isFixed || (f.calls none text.toList).isEmpty

/-- It is not the files alone that decide which functions are called: an answer may bring a call, and
what a reference has put in place is read once more for functions. -/
theorem answers_call_functions :
    ¬ ∀ (tree : FileTree) (host : Host Dialogue) (config : RunConfig) (paths : List String)
      (answer : Request → Bool → Except TransportFault Outcome), host.Constant answer →
      (∀ path ∈ paths, (tree.readText path).toOption.map withoutChance = some true) →
      (∀ path ∈ paths, Readable tree config path) →
        (runFrom (files tree host config paths) .fresh).1.toOption.map (·.files.map some) =
          some (paths.map fun path => (alone tree host config .fresh path).toOption) := by
  intro isolated
  have same := isolated twoFiles ((Script.ofBody "number()").host fun _ => true) .default
    ["a.http", "a.http"] _ (constant_ofBody "number()") (by decide +kernel) (by decide +kernel)
  revert same
  decide +kernel

end Run

end DotHttp
