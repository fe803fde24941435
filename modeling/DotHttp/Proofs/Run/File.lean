import DotHttp.Proofs.Run.Reached

/-!
Runs of request files. What is read from a file and its environment is a failure, or requests and
variables; then all is up to the run over the requests. A bound on the number of events that is not
used up changes nothing.
-/

namespace DotHttp.Run

variable {σ : Type} {tree : FileTree} {host : Host σ} {config : RunConfig} {path : String}

/-- The requests of a file and the variables for them, with the notes on the way there. -/
def prepare (tree : FileTree) (config : RunConfig) (path : String) :
    Except Failure (List Request × List Variable) × List Note :=
  match load tree [] path with
  | (.error f, ns) => (.error f, ns)
  | (.ok rs, ns) =>
    match Environment.load tree path config.environment with
    | (.error f, ns') => (.error f, ns ++ ns')
    | (.ok vars, ns') => (.ok (rs, vars), ns ++ ns' ++ [.processing path rs.length])

theorem load_of_prepare {rs : List Request} {vars : List Variable} {ns : List Note}
    (h : prepare tree config path = (.ok (rs, vars), ns)) : (load tree [] path).1 = .ok rs := by
  unfold prepare at h
  generalize load tree [] path = loaded at h ⊢
  obtain ⟨f | rs', ns₁⟩ := loaded
  · simp at h
  · dsimp only at h
    split at h <;> simp_all

theorem runFrom_noting {α : Type} (result : Except Failure α × List Note) (s : Session σ) :
    runFrom (noting result) s = (result.1, s.add (result.2.map .note)) := by
  obtain ⟨f | a, ns⟩ := result
  · exact runFrom_bind_ok (runFrom_notes _ s) _
  · exact runFrom_bind_ok (runFrom_notes _ s) _

theorem runFrom_file (tree : FileTree) (host : Host σ) (config : RunConfig) (events : Option Nat)
    (path : String) (s : Session σ) :
    runFrom (file tree host config events path) s =
      if events = some 0 then (.ok none, s)
      else
        match prepare tree config path with
        | (.error f, ns) => (.error f, s.add (ns.map .note))
        | (.ok (rs, vars), ns) =>
          runFrom (requests host config vars events path rs) (s.add (ns.map .note)) := by
  unfold file prepare
  by_cases hz : events = some 0
  · simp only [if_pos hz, runFrom_pure]
  · simp only [if_neg hz]
    have loaded := runFrom_noting (load tree [] path) s
    generalize load tree [] path = result at loaded ⊢
    obtain ⟨f | rs, ns⟩ := result
    · exact runFrom_bind_error loaded _
    · rw [runFrom_bind_ok loaded]
      have read := runFrom_noting (Environment.load tree path config.environment)
        (s.add (ns.map .note))
      generalize Environment.load tree path config.environment = result at read ⊢
      obtain ⟨f | vars, ns'⟩ := result
      · rw [runFrom_bind_error read]
        simp
      · rw [runFrom_bind_ok read, runFrom_bind_ok (runFrom_note _ _)]
        simp

theorem runFrom_wholeFile (tree : FileTree) (host : Host σ) (config : RunConfig) (path : String)
    (s : Session σ) :
    runFrom (wholeFile tree host config path) s =
      match runFrom (file tree host config none path) s with
      | (.ok (some run), s') => (.ok run, s')
      | (.ok none, s') => (.ok (.start path), s')
      | (.error f, s') => (.error f, s') := by
  unfold wholeFile
  rw [runFrom_bind]
  generalize runFrom (file tree host config none path) s = result
  obtain ⟨_ | _ | _, _⟩ := result <;> rfl

theorem requestsFrom_ends (host : Host σ) (config : RunConfig) (vars : List Variable) (total : Nat)
    (run : FileRun) (index : Nat) (rs : List Request) (s : Session σ) :
    (runFrom (requestsFrom host config vars total none run index rs) s).1 ≠ .ok none := by
  induction rs generalizing run index s with
  | nil => simp [runFrom_requestsFrom_nil]
  | cons r rest ih =>
    rw [runFrom_requestsFrom_cons, if_neg (by simp)]
    split
    · simp
    · split
      · exact ih _ _ _
      · simp

/-- A run over requests that does not leave off goes as one without a bound on the events. -/
theorem requestsFrom_unbounded {vars : List Variable} {total : Nat} {events : Option Nat}
    {run : FileRun} {index : Nat} {rs : List Request} {s : Session σ}
    (h : (runFrom (requestsFrom host config vars total events run index rs) s).1 ≠ .ok none) :
    runFrom (requestsFrom host config vars total none run index rs) s =
      runFrom (requestsFrom host config vars total events run index rs) s := by
  induction rs generalizing events run index s with
  | nil =>
    simp only [runFrom_requestsFrom_nil] at h ⊢
    by_cases hz : events = some 0
    · simp [hz] at h
    · simp [hz]
  | cons r rest ih =>
    rw [runFrom_requestsFrom_cons] at h ⊢
    rw [runFrom_requestsFrom_cons, if_neg (by simp)]
    by_cases hz : events = some 0
    · simp [hz] at h
    · rw [if_neg hz] at h ⊢
      by_cases hc : s.cancelled = true
      · rw [if_pos hc, if_pos hc]
      · rw [if_neg hc] at h ⊢
        rw [if_neg hc]
        generalize runFrom (pass host config vars total run index r) s = passed at h ⊢
        obtain ⟨f | run', s'⟩ := passed
        · rfl
        · exact ih h

theorem file_ends (tree : FileTree) (host : Host σ) (config : RunConfig) (path : String)
    (s : Session σ) : (runFrom (file tree host config none path) s).1 ≠ .ok none := by
  rw [runFrom_file, if_neg (by simp)]
  split
  · simp
  · exact requestsFrom_ends _ _ _ _ _ _ _ _

/-- Whoever takes events up to the end, of a file or in it, gets what a run of the whole file gives. -/
theorem file_eq_wholeFile {events : Option Nat} {s : Session σ}
    (h : (runFrom (file tree host config events path) s).1 ≠ .ok none) :
    runFrom (file tree host config events path) s =
      ((runFrom (wholeFile tree host config path) s).1.map some,
        (runFrom (wholeFile tree host config path) s).2) := by
  have same : runFrom (file tree host config none path) s =
      runFrom (file tree host config events path) s := by
    rw [runFrom_file] at h ⊢
    rw [runFrom_file]
    by_cases hz : events = some 0
    · simp [hz] at h
    · rw [if_neg hz] at h ⊢
      rw [if_neg (by simp)]
      generalize prepare tree config path = prepared at h ⊢
      obtain ⟨f | ⟨rs, vars⟩, ns⟩ := prepared
      · rfl
      · exact requestsFrom_unbounded h
  rw [runFrom_wholeFile, same]
  generalize runFrom (file tree host config events path) s = result at h ⊢
  obtain ⟨f | _ | run, s'⟩ := result
  · rfl
  · exact (h rfl).elim
  · rfl

theorem requests_of_wholeFile {rs : List Request} {vars : List Variable} {ns : List Note}
    (h : prepare tree config path = (.ok (rs, vars), ns)) (s : Session σ) :
    runFrom (requests host config vars none path rs) (s.add (ns.map .note)) =
      ((runFrom (wholeFile tree host config path) s).1.map some,
        (runFrom (wholeFile tree host config path) s).2) := by
  rw [← file_eq_wholeFile (file_ends tree host config path s), runFrom_file, if_neg (by simp), h]

theorem wholeFile_of_requests {rs : List Request} {vars : List Variable} {ns : List Note}
    {s s' : Session σ} {result : Except Failure FileRun}
    (h : prepare tree config path = (.ok (rs, vars), ns))
    (hr : runFrom (requests host config vars none path rs) (s.add (ns.map .note)) =
      (result.map some, s')) :
    runFrom (wholeFile tree host config path) s = (result, s') := by
  rw [runFrom_wholeFile, runFrom_file, if_neg (by simp), h]
  dsimp only
  rw [hr]
  cases result <;> rfl

theorem wholeFile_of_failure {f : Failure} {ns : List Note} {s : Session σ}
    (h : prepare tree config path = (.error f, ns)) :
    runFrom (wholeFile tree host config path) s = (.error f, s.add (ns.map .note)) := by
  rw [runFrom_wholeFile, runFrom_file, if_neg (by simp), h]

/-- What is left behind by a run of a file whose requests could be read. -/
theorem wholeFile_stops (host : Host σ) {rs : List Request} {vars : List Variable} {ns : List Note}
    (h : prepare tree config path = (.ok (rs, vars), ns)) (s : Session σ) :
    ∃ es s₁ hs, Reached host config.insecure rs (s.add (ns.map .note)) es s₁ ∧
      Stopped path rs es s₁ ((runFrom (wholeFile tree host config path) s).1.map some)
        (runFrom (wholeFile tree host config path) s).2 ∧
      (runFrom (wholeFile tree host config path) s).2.happenings = s.happenings ++ hs ∧
      Happening.events hs = es ∧
      Happening.sendsByEvent hs = (es.map fun e => e.context.sent, []) := by
  obtain ⟨es, s₁, hs, reached, stopped, happened, events, sends⟩ :=
    requests_stops (requests_of_wholeFile h s)
  have quiet := Happening.quiet_notes ns
  refine ⟨es, s₁, ns.map .note ++ hs, reached, stopped, ?_, ?_, ?_⟩
  · rw [happened, Session.add, List.append_assoc]
  · rw [Happening.events_append, quiet.events, events, List.nil_append]
  · rw [Happening.sendsByEvent_append]
    exact (congrArg (hs.foldl Happening.collect) (quiet.foldl_collect ([], []))).trans sends

theorem happenings_wholeFile (tree : FileTree) (host : Host σ) (config : RunConfig)
    (path : String) (s : Session σ) :
    ∃ hs, (runFrom (wholeFile tree host config path) s).2.happenings = s.happenings ++ hs := by
  cases hp : prepare tree config path with
  | mk prepared ns =>
    cases prepared with
    | error f => exact ⟨ns.map .note, by rw [wholeFile_of_failure hp]; rfl⟩
    | ok read =>
      obtain ⟨-, -, hs, -, -, happened, -⟩ := wholeFile_stops host hp s
      exact ⟨hs, happened⟩

end DotHttp.Run
