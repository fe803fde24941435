import DotHttp.Proofs.Run.File

/-!
Runs of files in small steps, each of which looks at what the runs share at most once. Taken one after
the other the steps are the run of the file; between any two of them another run can take one of its own.
-/

namespace DotHttp.Run

variable {σ : Type}

/-- Where a run over the requests of a file stands. -/
structure Place where
  vars : List Variable
  total : Nat
  run : FileRun
  index : Nat
  rest : List Request

def Place.enter (p : Place) (e : Event) : Place :=
  { p with run := p.run.enter e, index := p.index + 1 }

/-- How far a run of a file has come. -/
inductive Stage where
  | unread
  | between (p : Place)
  /-- At a request that nothing is planned for yet. -/
  | facing (p : Place) (r : Request)
  | sending (p : Place) (resolved : Request)
  | showing (p : Place) (e : Event)
  | ended (result : Except Failure FileRun)

/-- Takes a run of a file one step further. -/
def Stage.step (tree : FileTree) (host : Host σ) (config : RunConfig) (path : String) :
    Stage → Session σ → Stage × Session σ
  | .unread, s =>
    match prepare tree config path with
    | (.error f, ns) => (.ended (.error f), s.add (ns.map .note))
    | (.ok (rs, vars), ns) =>
      (.between ⟨vars, rs.length, .start path, 0, rs⟩, s.add (ns.map .note))
  | .between p, s =>
    match p.rest with
    | [] => (.ended (.ok p.run), s)
    | r :: rest =>
      if s.cancelled then
        (.ended (.ok { p.run with cancelled := true }),
          s.add [.note (.cancelled p.index p.total p.run.filename)])
      else (.facing { p with rest } r, s.add (waits config p.index))
  | .facing p r, s =>
    match plan host.sources p.run.store p.vars r s.next with
    | (.skip reason, next, ns) =>
      (.showing p (.skipped p.index p.total r reason),
        (s.drawn next).add (ns.map .note ++ [skipNote p.index r reason]))
    | (.send resolved, next, ns) =>
      (.sending p resolved, (s.drawn next).add (ns.map .note ++ pauses resolved.preDelay))
    | (.fail, next, ns) =>
      (.ended (.error (.defect .tooManyDigits)), (s.drawn next).add (ns.map .note))
  | .sending p resolved, s =>
    let q := withTimeouts config resolved
    let o := verdict q (host.send q config.insecure s.world).1.outcome
    let e := .answered p.index p.total q o
    (.showing p e, (s.exchange host config.insecure q).add
      (pauses resolved.postDelay ++ [finishNote q e o]))
  | .showing p e, s => (.between (p.enter e), s.shown host e)
  | .ended result, s => (.ended result, s)

/-- Steps of one run, with nothing between them. -/
inductive Steps (tree : FileTree) (host : Host σ) (config : RunConfig) (path : String) :
    Stage → Session σ → Stage → Session σ → Prop
  | done (stage : Stage) (s : Session σ) : Steps tree host config path stage s stage s
  | step {stage stage₁ stage' : Stage} {s s₁ s' : Session σ}
      (first : stage.step tree host config path s = (stage₁, s₁))
      (rest : Steps tree host config path stage₁ s₁ stage' s') :
      Steps tree host config path stage s stage' s'

variable {tree : FileTree} {host : Host σ} {config : RunConfig} {path : String}
  {stage stage₁ stage' : Stage} {s s₁ s' : Session σ}

theorem Steps.trans (h : Steps tree host config path stage s stage₁ s₁)
    (h' : Steps tree host config path stage₁ s₁ stage' s') :
    Steps tree host config path stage s stage' s' := by
  induction h with
  | done => exact h'
  | step first _ ih => exact .step first (ih h')

theorem steps_of_pass (tree : FileTree) (host : Host σ) (config : RunConfig) (path : String)
    (p : Place) (r : Request) (s : Session σ) :
    match runFrom (pass host config p.vars p.total p.run p.index r) s with
    | (.ok run, s') => Steps tree host config path (.facing p r) (s.add (waits config p.index))
        (.between { p with run, index := p.index + 1 }) s'
    | (.error f, s') => Steps tree host config path (.facing p r) (s.add (waits config p.index))
        (.ended (.error f)) s' := by
  have seen : (s.add (waits config p.index)).next = s.next := Session.next_add _ _
  rw [runFrom_pass]
  cases hp : plan host.sources p.run.store p.vars r s.next with
  | mk planned rest =>
    obtain ⟨next, ns⟩ := rest
    cases planned with
    | skip reason =>
      refine .step (by rw [Stage.step, seen, hp]) (.step rfl ?_)
      rw [Session.drawn_add, Session.add_add, ← List.append_assoc]
      exact .done _ _
    | send resolved =>
      refine .step (by rw [Stage.step, seen, hp]) (.step rfl (.step rfl ?_))
      rw [Session.drawn_add, Session.add_add, ← List.append_assoc]
      exact .done _ _
    | fail =>
      refine .step (by rw [Stage.step, seen, hp]) ?_
      rw [Session.drawn_add, Session.add_add]
      exact .done _ _

theorem steps_of_requestsFrom (p : Place) (s : Session σ) {result : Except Failure FileRun}
    (h : runFrom (requestsFrom host config p.vars p.total none p.run p.index p.rest) s =
      (result.map some, s')) :
    Steps tree host config path (.between p) s (.ended result) s' := by
  obtain ⟨vars, total, run, index, rest⟩ := p
  induction rest generalizing run index s with
  | nil =>
    obtain ⟨ends, rfl⟩ := Prod.mk.inj h
    cases result with
    | error f => cases ends
    | ok run' =>
      cases ends
      exact .step rfl (.done _ _)
  | cons r rest ih =>
    dsimp only at h
    rw [runFrom_requestsFrom_cons, if_neg (by simp)] at h
    by_cases hc : s.cancelled = true
    · rw [if_pos hc] at h
      obtain ⟨ends, rfl⟩ := Prod.mk.inj h
      cases result with
      | error f => cases ends
      | ok run' =>
        cases ends
        exact .step (by simp only [Stage.step, if_pos hc]) (.done _ _)
    · rw [if_neg hc] at h
      have passes := steps_of_pass tree host config path ⟨vars, total, run, index, rest⟩ r s
      have first : Stage.step tree host config path (.between ⟨vars, total, run, index, r :: rest⟩)
          s = (.facing ⟨vars, total, run, index, rest⟩ r, s.add (waits config index)) := by
        simp only [Stage.step, if_neg hc]
      refine .step first ?_
      dsimp only at passes
      generalize runFrom (pass host config vars total run index r) s = passed at h passes
      obtain ⟨f | run', s₁⟩ := passed
      · obtain ⟨ends, rfl⟩ := Prod.mk.inj h
        cases result with
        | error f' =>
          cases ends
          exact passes
        | ok run' => cases ends
      · exact passes.trans (ih _ _ _ h)

/-- With nothing between them, the steps of a file from its start to its end are the run of the file. -/
theorem steps_wholeFile (tree : FileTree) (host : Host σ) (config : RunConfig) (path : String)
    (s : Session σ) :
    Steps tree host config path .unread s
      (.ended (runFrom (wholeFile tree host config path) s).1)
      (runFrom (wholeFile tree host config path) s).2 := by
  cases hp : prepare tree config path with
  | mk prepared ns =>
    cases prepared with
    | error f =>
      rw [wholeFile_of_failure hp]
      exact .step (by simp only [Stage.step, hp]) (.done _ _)
    | ok read =>
      obtain ⟨rs, vars⟩ := read
      have first : Stage.unread.step tree host config path s =
          (.between ⟨vars, rs.length, .start path, 0, rs⟩, s.add (ns.map .note)) := by
        simp only [Stage.step, hp]
      exact .step first (steps_of_requestsFrom _ _ (requests_of_wholeFile hp s))

end DotHttp.Run
