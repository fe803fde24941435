import DotHttp.Proofs.Run.File
import DotHttp.Proofs.Run.Scripted

/-!
Cancellation. Whether to go on is asked before each request and nowhere else. So the request at which
a run is cancelled still runs to its end, and after it the files that are left are read but not run.
-/

namespace DotHttp.Run

variable {σ : Type}

/-- A file whose requests and variables can be read. -/
def Readable (tree : FileTree) (config : RunConfig) (path : String) : Prop :=
  (prepare tree config path).1.isOk = true

instance (tree : FileTree) (config : RunConfig) (path : String) :
    Decidable (Readable tree config path) :=
  inferInstanceAs (Decidable (_ = _))

theorem Readable.prepared {tree : FileTree} {config : RunConfig} {path : String}
    (h : Readable tree config path) :
    ∃ rs vars ns, prepare tree config path = (.ok (rs, vars), ns) := by
  unfold Readable at h
  generalize prepare tree config path = result at h
  obtain ⟨f | ⟨rs, vars⟩, ns⟩ := result
  · cases h
  · exact ⟨rs, vars, ns, rfl⟩

/-- A run of a file that reached all of its requests. -/
def Finished (tree : FileTree) (path : String) (run : FileRun) : Prop :=
  ∃ rs, (load tree [] path).1 = .ok rs ∧ run.filename = path ∧ run.store.size = rs.length ∧
    run.cancelled = false

/-- A run of a file that reached none of its requests; it is cancelled if there are any. -/
def Untouched (tree : FileTree) (path : String) (run : FileRun) : Prop :=
  ∃ rs, (load tree [] path).1 = .ok rs ∧
    run = { FileRun.start path with cancelled := decide (rs ≠ []) }

/-- A run over requests is cancelled at one of them: the request has its turn, its event is entered
with those before, and the run is marked if there is a next request. The second session is the one
right after the turn. -/
inductive Interrupted (host : Host σ) (config : RunConfig) (path : String) (rs : List Request)
    (s₀ : Session σ) : FileRun → Session σ → Prop
  | turn {es : List Event} {s s' : Session σ} {r : Request} {e : Event}
      (reached : Reached host config.insecure rs s₀ es s) (hr : rs[es.length]? = some r)
      (goOn : s.cancelled = false)
      (taken : Turn host config rs.length (.ofEvents es) es.length r s e s')
      (stop : s'.cancelled = true) :
      Interrupted host config path rs s₀
        { FileRun.ofEvents path (es ++ [e]) with cancelled := decide (es.length + 1 < rs.length) } s'

/-- What runs of files, one after the other, come to, by the moment at which they are cancelled:
never, before they start, or during a request. -/
inductive Course (tree : FileTree) (host : Host σ) (config : RunConfig) (paths : List String)
    (s : Session σ) : Except Failure (List FileRun) → Session σ → Prop
  | never {result : Except Failure (List FileRun)} {s' : Session σ} (free : s'.cancelled = false)
      (finished : ∀ runs, result = .ok runs → List.Forall₂ (Finished tree) paths runs) :
      Course tree host config paths s result s'
  | before {runs : List FileRun} {ns : List Note} (stop : s.cancelled = true)
      (untouched : List.Forall₂ (Untouched tree) paths runs) :
      Course tree host config paths s (.ok runs) (s.add (ns.map .note))
  | during {earlier later : List String} {path : String} {rs : List Request}
      {vars : List Variable} {ns ns' : List Note} {runs runs' : List FileRun} {run : FileRun}
      {s₁ s₂ : Session σ}
      (split : paths = earlier ++ path :: later)
      (ran : runFrom (inSequence tree host config earlier) s = (.ok runs, s₁))
      (finished : List.Forall₂ (Finished tree) earlier runs)
      (prepared : prepare tree config path = (.ok (rs, vars), ns))
      (interrupted : Interrupted host config path rs (s₁.add (ns.map .note)) run s₂)
      (untouched : List.Forall₂ (Untouched tree) later runs') :
      Course tree host config paths s (.ok (runs ++ run :: runs')) (s₂.add (ns'.map .note))

variable {tree : FileTree} {host : Host σ} {config : RunConfig} {vars : List Variable}
  {path : String} {rs : List Request} {s₀ s s' : Session σ}

/-- Once cancelled, a run over requests leaves a note if any are left, and nothing else. -/
theorem runFrom_requestsFrom_of_cancelled (host : Host σ) (config : RunConfig)
    (vars : List Variable) (total : Nat) (run : FileRun) (index : Nat) (rest : List Request)
    (hc : s.cancelled = true) :
    ∃ ns : List Note, runFrom (requestsFrom host config vars total none run index rest) s =
      (.ok (some { run with cancelled := run.cancelled || decide (rest ≠ []) }),
        s.add (ns.map .note)) := by
  cases rest with
  | nil => exact ⟨[], by simp [runFrom_requestsFrom_nil]⟩
  | cons r rest =>
    refine ⟨[.cancelled index total run.filename], ?_⟩
    rw [runFrom_requestsFrom_cons, if_neg (by simp), if_pos hc]
    simp

/-- A run over requests that is cancelled on the way is so during one of them. -/
theorem requestsFrom_interrupted {es : List Event} {rest : List Request}
    {result : Except Failure (Option FileRun)}
    (reached : Reached host config.insecure rs s₀ es s) (hrest : rs.drop es.length = rest)
    (goOn : s.cancelled = false)
    (h : runFrom (requestsFrom host config vars rs.length none (.ofEvents path es) es.length rest) s =
      (result, s'))
    (stop : s'.cancelled = true) :
    ∃ run s₁, ∃ ns : List Note, Interrupted host config path rs s₀ run s₁ ∧
      result = .ok (some run) ∧ s' = s₁.add (ns.map .note) := by
  induction rest generalizing es s with
  | nil =>
    rw [runFrom_requestsFrom_nil] at h
    cases h
    simp [goOn] at stop
  | cons r rest ih =>
    have hr : rs[es.length]? = some r := by rw [← List.head?_drop, hrest]; rfl
    have tail : rs.drop (es.length + 1) = rest := by rw [← List.tail_drop, hrest]; rfl
    rw [runFrom_requestsFrom_cons, if_neg (by simp), if_neg (by simp [goOn])] at h
    cases hp : runFrom (pass host config vars rs.length (.ofEvents path es) es.length r) s with
    | mk passed s₁ =>
      rw [hp] at h
      cases passed with
      | error f =>
        -- A turn that fails does so before anything is asked of the host.
        cases h
        obtain ⟨next, quiet, -, rfl⟩ := quiet_of_pass_error hp
        simp [Session.add, Session.drawn, goOn] at stop
      | ok run =>
        obtain ⟨e, turn, rfl⟩ := turn_of_pass hp
        rw [FileRun.ofEvents_eq] at turn
        dsimp only at h
        rw [← FileRun.ofEvents_concat] at h
        cases hc : s₁.cancelled with
        | false =>
          refine ih (reached.pass hr goOn turn.passed) ?_ hc ?_
          · simpa using tail
          · simpa using h
        | true =>
          obtain ⟨ns, ended⟩ := runFrom_requestsFrom_of_cancelled host config vars rs.length
            (.ofEvents path (es ++ [e])) (es.length + 1) rest hc
          have left : decide (rest ≠ []) = decide (es.length + 1 < rs.length) := by
            rw [← tail]
            simp [List.drop_eq_nil_iff]
          rw [Option.map_none, ended, left] at h
          cases h
          refine ⟨_, s₁, ns, .turn reached hr goOn turn hc, ?_, rfl⟩
          rw [FileRun.ofEvents_eq, Bool.false_or]

/-- What a run of one file comes to when it may go on. -/
theorem wholeFile_course {ns : List Note} {result : Except Failure FileRun}
    (prepared : prepare tree config path = (.ok (rs, vars), ns)) (goOn : s.cancelled = false)
    (h : runFrom (wholeFile tree host config path) s = (result, s')) :
    (s'.cancelled = false ∧ ∀ run, result = .ok run → Finished tree path run) ∨
      ∃ run s₁, ∃ ns' : List Note, Interrupted host config path rs (s.add (ns.map .note)) run s₁ ∧
        result = .ok run ∧ s' = s₁.add (ns'.map .note) := by
  have ran : runFrom (requests host config vars none path rs) (s.add (ns.map .note)) = _ :=
    requests_of_wholeFile prepared s
  rw [h] at ran
  cases stop : s'.cancelled with
  | false =>
    refine .inl ⟨rfl, fun run hrun => ?_⟩
    subst hrun
    obtain ⟨es, s₁, -, reached, stopped, -⟩ := requests_stops ran
    have all : es.length = rs.length := by
      cases stopped with
      | finished hl => exact hl
      | cancelled hl hc => exact absurd (hc.symm.trans stop) (by simp)
    rw [stopped.run_eq, FileRun.ofEvents_eq]
    exact ⟨rs, load_of_prepare prepared, rfl, by simp [Store.size, Store.ofEvents, all],
      by simp [all]⟩
  | true =>
    obtain ⟨run, s₁, ns', interrupted, hrun, hs'⟩ :=
      requestsFrom_interrupted (s := s.add (ns.map .note)) .start List.drop_zero goOn ran stop
    refine .inr ⟨run, s₁, ns', interrupted, ?_, hs'⟩
    cases result with
    | error f => cases hrun
    | ok run' => cases hrun; rfl

/-- Once cancelled, runs of files that can be read leave notes, and nothing else. -/
theorem inSequence_of_cancelled (host : Host σ) {paths : List String}
    (readable : ∀ path ∈ paths, Readable tree config path) (hc : s.cancelled = true) :
    ∃ runs, ∃ ns : List Note, List.Forall₂ (Untouched tree) paths runs ∧
      runFrom (inSequence tree host config paths) s = (.ok runs, s.add (ns.map .note)) := by
  induction paths generalizing s with
  | nil => exact ⟨[], [], .nil, by simp [inSequence]⟩
  | cons path rest ih =>
    obtain ⟨rs, vars, ns, prepared⟩ := (readable path List.mem_cons_self).prepared
    obtain ⟨ns₁, ran⟩ := runFrom_requestsFrom_of_cancelled host config vars rs.length
      (.start path) 0 rs (s := s.add (ns.map .note)) hc
    have first : runFrom (wholeFile tree host config path) s = (.ok _, _) :=
      wholeFile_of_requests prepared ran
    rw [Session.add_add, ← List.map_append] at first
    obtain ⟨runs, ns₂, untouched, after⟩ :=
      ih (s := s.add ((ns ++ ns₁).map .note)) (fun path h => readable path (List.mem_cons_of_mem _ h)) hc
    refine ⟨_ :: runs, (ns ++ ns₁) ++ ns₂, .cons ⟨rs, load_of_prepare prepared, rfl⟩ untouched, ?_⟩
    rw [inSequence, runFrom_bind_ok first, runFrom_bind_ok after, runFrom_pure, Session.add_add,
      ← List.map_append]
    rfl

/-- A file that was finished comes before the course of the files after it. -/
theorem Course.cons {rest : List String} {run : FileRun} {s₁ : Session σ}
    {result : Except Failure (List FileRun)}
    (first : runFrom (wholeFile tree host config path) s = (.ok run, s₁))
    (finished : Finished tree path run) (goOn : s₁.cancelled = false)
    (h : Course tree host config rest s₁ result s') :
    Course tree host config (path :: rest) s (result.map (run :: ·)) s' := by
  cases h with
  | never free all =>
    refine .never free fun runs hr => ?_
    cases result with
    | error f => cases hr
    | ok runs' => cases hr; exact .cons finished (all runs' rfl)
  | before stop untouched => rw [goOn] at stop; cases stop
  | @during earlier later _ _ _ _ _ _ _ _ _ _ split ran all prepared interrupted untouched =>
    subst split
    refine .during (List.cons_append).symm ?_ (.cons finished all) prepared interrupted untouched
    rw [inSequence, runFrom_bind_ok first, runFrom_bind_ok ran, runFrom_pure]

theorem inSequence_course {paths : List String} {result : Except Failure (List FileRun)}
    (readable : ∀ path ∈ paths, Readable tree config path) (goOn : s.cancelled = false)
    (h : runFrom (inSequence tree host config paths) s = (result, s')) :
    Course tree host config paths s result s' := by
  induction paths generalizing s s' result with
  | nil =>
    rw [inSequence, runFrom_pure] at h
    cases h
    exact .never goOn fun runs hr => by cases hr; exact .nil
  | cons path rest ih =>
    have rest_readable : ∀ path ∈ rest, Readable tree config path :=
      fun path h => readable path (List.mem_cons_of_mem _ h)
    obtain ⟨rs, vars, ns, prepared⟩ := (readable path List.mem_cons_self).prepared
    rw [inSequence, runFrom_bind] at h
    cases hw : runFrom (wholeFile tree host config path) s with
    | mk first s₁ =>
      rw [hw] at h
      rcases wholeFile_course prepared goOn hw with
        ⟨goOn', finished⟩ | ⟨run, s₂, ns', interrupted, rfl, rfl⟩
      · cases first with
        | error f =>
          cases h
          exact .never goOn' fun _ hr => by cases hr
        | ok run =>
          cases hr : runFrom (inSequence tree host config rest) s₁ with
          | mk runs s₂ =>
            have course := (ih rest_readable goOn' hr).cons hw (finished run rfl) goOn'
            dsimp only at h
            rw [runFrom_bind, hr] at h
            cases runs <;> cases h <;> exact course
      · have stop : s₂.cancelled = true := by
          cases interrupted with
          | turn reached hr goOn taken stop => exact stop
        obtain ⟨runs, ns₂, untouched, after⟩ :=
          inSequence_of_cancelled host rest_readable (s := s₂.add (ns'.map .note)) stop
        dsimp only at h
        rw [runFrom_bind_ok after, runFrom_pure, Session.add_add, ← List.map_append] at h
        cases h
        exact .during (List.nil_append _).symm rfl .nil prepared interrupted untouched

/-- A tree with files of one request, of two, of one and of none. -/
def fourFiles : FileTree where
  nodes := [(["a.http"], .file "GET https://a".toUTF8.toList),
    (["b.http"], .file "GET https://b\n###\nGET https://c".toUTF8.toList),
    (["c.http"], .file "GET https://d".toUTF8.toList), (["d.http"], .file [])]
  workingDirectory := []
  homeDirectory := []
  mount := ""
  nodup := by decide

end DotHttp.Run
