import DotHttp.Proofs.Run.Eligible
import DotHttp.Proofs.Run.Happenings

/-!
What a run does at one request, as a plain function of the session it finds. All of it follows from
the plan for the request, the transport's answer to what is sent, and the observer's to the event.
-/

namespace DotHttp

variable {σ : Type}

namespace Session

def add (s : Session σ) (hs : List Happening) : Session σ :=
  { s with happenings := s.happenings ++ hs }

def drawn (s : Session σ) (next : Nat) : Session σ :=
  { s with next }

def exchange (host : Host σ) (insecure : Bool) (r : Request) (s : Session σ) : Session σ :=
  let (reply, world) := host.send r insecure s.world
  { s with
    world
    cancelled := s.cancelled || reply.cancels
    happenings := s.happenings ++ .send r insecure :: reply.remarks.map Remark.happening }

def shown (host : Host σ) (e : Event) (s : Session σ) : Session σ :=
  let (goOn, world) := host.observe e s.world
  { s with world, cancelled := s.cancelled || !goOn, happenings := s.happenings ++ [.event e] }

@[simp] theorem add_nil (s : Session σ) : s.add [] = s := by
  simp only [add, List.append_nil]

@[simp] theorem add_add (s : Session σ) (hs hs' : List Happening) :
    (s.add hs).add hs' = s.add (hs ++ hs') := by
  simp only [add, List.append_assoc]

@[simp] theorem drawn_add (s : Session σ) (hs : List Happening) (next : Nat) :
    (s.add hs).drawn next = (s.drawn next).add hs := rfl

@[simp] theorem next_add (s : Session σ) (hs : List Happening) : (s.add hs).next = s.next := rfl

end Session

namespace Event

def skipped (index total : Nat) (r : Request) (reason : String) : Event :=
  ⟨index, total, Store.nameFor r (index + 1), r, .skipped, none, some reason⟩

def answered (index total : Nat) (r : Request) (o : Outcome) : Event :=
  ⟨index, total, Store.nameFor r (index + 1), r, if o.success then .succeeded else .failed, some o,
    o.message⟩

/-- What a store keeps of an event. -/
def context (e : Event) : Context :=
  ⟨e.name, e.request, e.outcome⟩

end Event

/-- A run with an event entered: its context is recorded and its status counted. -/
def FileRun.enter (run : FileRun) (e : Event) : FileRun :=
  { run with store := ⟨run.store.contexts ++ [e.context]⟩ }.count e.status

namespace Run

def pauses : Option Nat → List Happening
  | some (n + 1) => [.pause (n + 1)]
  | _ => []

theorem runFrom_happen (h : Happening) (s : Session σ) :
    runFrom (happen h) s = (.ok (), s.add [h]) := rfl

theorem runFrom_note (n : Note) (s : Session σ) :
    runFrom (note n) s = (.ok (), s.add [.note n]) := rfl

theorem runFrom_notes (ns : List Note) (s : Session σ) :
    runFrom (notes ns) s = (.ok (), s.add (ns.map .note)) := by
  induction ns generalizing s with
  | nil => simp [notes]
  | cons n rest ih =>
    rw [notes, runFrom_bind_ok (runFrom_note n s), ih, Session.add_add]
    rfl

theorem runFrom_pause (m : Option Nat) (s : Session σ) :
    runFrom (pause m) s = (.ok (), s.add (pauses m)) := by
  rcases m with _ | _ | n
  · simp [pause, pauses]
  · simp [pause, pauses]
  · exact runFrom_happen _ s

theorem runFrom_skipReason (store : Store) (r : Request) (s : Session σ) :
    runFrom (skipReason store r) s =
      (.ok (refusal? store r), s.add ((conditionNotes store r).map .note)) := by
  unfold skipReason refusal? conditionNotes
  cases hd : store.dependencyMet r.dependsOn with
  | false => simp
  | true =>
    simp only [Bool.not_true, Bool.false_eq_true, if_false, if_true]
    rw [runFrom_bind_ok (runFrom_notes _ s), runFrom_pure]
    simp [Condition.allMet, Condition.evaluateAll, Function.comp_def]

theorem runFrom_resolve (src : Sources) (store : Store) (vars : List Variable) (r : Request)
    (s : Session σ) :
    runFrom (resolve src store vars r) s =
      (.ok (runFrom (Resolution.request src store vars r) ⟨s.next, []⟩).1,
        (s.drawn (runFrom (Resolution.request src store vars r) ⟨s.next, []⟩).2.next).add
          ((runFrom (Resolution.request src store vars r) ⟨s.next, []⟩).2.notes.map .note)) := by
  unfold resolve
  rw [runFrom_bind_ok (runFrom_get s)]
  exact (runFrom_bind_ok (runFrom_set _ s) _).trans (runFrom_bind_ok (runFrom_notes _ _) _)

theorem runFrom_dispatch (host : Host σ) (insecure : Bool) (r : Request) (s : Session σ) :
    runFrom (dispatch host insecure r) s =
      (.ok (verdict r (host.send r insecure s.world).1.outcome), s.exchange host insecure r) := by
  unfold dispatch
  rw [runFrom_bind_ok (runFrom_happen _ s), runFrom_bind_ok (runFrom_get _),
    runFrom_bind_ok (runFrom_set _ _), runFrom_pure]
  simp [Session.exchange, Session.add]

theorem runFrom_deliver (host : Host σ) (e : Event) (s : Session σ) :
    runFrom (deliver host e) s = (.ok (), s.shown host e) := rfl

theorem runFrom_skip (run : FileRun) (index total : Nat) (r : Request) (reason : String)
    (s : Session σ) :
    runFrom (skip run index total r reason) s =
      (.ok (.skipped index total r reason,
          { run with store := run.store.record r none (index + 1) }),
        s.add [.note (.skipped (Store.nameFor r (index + 1)) r.method r.url reason)]) := rfl

def finishNote (q : Request) (e : Event) (o : Outcome) : Happening :=
  .note (.finished e.name q.method q.url e.status o.status o.duration)

theorem runFrom_perform (host : Host σ) (config : RunConfig) (run : FileRun) (index total : Nat)
    (r : Request) (s : Session σ) :
    runFrom (perform host config run index total r) s =
      let q := withTimeouts config r
      let o := verdict q (host.send q config.insecure s.world).1.outcome
      let e := Event.answered index total q o
      (.ok (e, { run with store := run.store.record q (some o) (index + 1) }),
        ((s.add (pauses r.preDelay)).exchange host config.insecure q).add
          (pauses r.postDelay ++ [finishNote q e o])) := by
  unfold perform
  rw [runFrom_bind_ok (runFrom_pause _ s), runFrom_bind_ok (runFrom_dispatch _ _ _ _),
    runFrom_bind_ok (runFrom_pause _ _), runFrom_bind_ok (runFrom_note _ _), runFrom_pure]
  simp only [Session.add_add]
  rfl

def skipNote (index : Nat) (r : Request) (reason : String) : Happening :=
  .note (.skipped (Store.nameFor r (index + 1)) r.method r.url reason)

theorem runFrom_process (host : Host σ) (config : RunConfig) (vars : List Variable) (run : FileRun)
    (index total : Nat) (r : Request) (s : Session σ) :
    runFrom (process host config vars run index total r) s =
      match plan host.sources run.store vars r s.next with
      | (.skip reason, next, ns) =>
        (.ok (.skipped index total r reason,
            { run with store := run.store.record r none (index + 1) }),
          (s.drawn next).add (ns.map Happening.note ++ [skipNote index r reason]))
      | (.send resolved, next, ns) =>
        runFrom (perform host config run index total resolved)
          ((s.drawn next).add (ns.map .note))
      | (.fail, next, ns) => (.error (.defect .tooManyDigits), (s.drawn next).add (ns.map .note)) := by
  unfold process plan
  rw [runFrom_bind_ok (runFrom_skipReason _ _ s)]
  cases refusal? run.store r with
  | some reason =>
    dsimp only
    rw [runFrom_skip, Session.add_add]
    rfl
  | none =>
    dsimp only
    rw [runFrom_bind_ok (runFrom_resolve _ _ _ _ _)]
    rw [Session.next_add]
    generalize runFrom (Resolution.request host.sources run.store vars r) ⟨s.next, []⟩ = result
    obtain ⟨(_ | _) | resolved, p⟩ := result
    · dsimp only
      rw [runFrom_skip]
      simp [skipNote]
    · simp
    · simp

/-- The pause before the request at an index. -/
def waits (config : RunConfig) (index : Nat) : List Happening :=
  if index = 0 then [] else pauses (some config.delay)

/-- What a run does at one request: it fails, or skips the request, or sends it, and then enters the
event and shows it. -/
theorem runFrom_pass (host : Host σ) (config : RunConfig) (vars : List Variable) (total : Nat)
    (run : FileRun) (index : Nat) (r : Request) (s : Session σ) :
    runFrom (pass host config vars total run index r) s =
      match plan host.sources run.store vars r s.next with
      | (.skip reason, next, ns) =>
        let e := .skipped index total r reason
        (.ok (run.enter e), ((s.drawn next).add
          (waits config index ++ ns.map Happening.note ++ [skipNote index r reason])).shown host e)
      | (.send resolved, next, ns) =>
        let q := withTimeouts config resolved
        let o := verdict q (host.send q config.insecure s.world).1.outcome
        let e := .answered index total q o
        let before := waits config index ++ ns.map Happening.note ++ pauses resolved.preDelay
        let after := pauses resolved.postDelay ++ [finishNote q e o]
        (.ok (run.enter e),
          ((((s.drawn next).add before).exchange host config.insecure q).add after).shown host e)
      | (.fail, next, ns) =>
        (.error (.defect .tooManyDigits), (s.drawn next).add (waits config index ++ ns.map Happening.note)) := by
  -- The pause before a request changes nothing that the plan for it looks at.
  have waited : runFrom (pass host config vars total run index r) s =
      runFrom (process host config vars run index total r >>= fun p =>
        deliver host p.1 >>= fun _ => pure (p.2.count p.1.status))
        (s.add (waits config index)) := by
    unfold pass
    by_cases h : index = 0
    · subst h
      simp only [waits, if_true, Session.add_nil]
      rfl
    · simp only [bne_iff_ne, ne_eq, h, not_false_eq_true, if_true, waits, if_false]
      exact runFrom_bind_ok (runFrom_pause _ s) _
  have processed := runFrom_process host config vars run index total r (s.add (waits config index))
  rw [Session.next_add] at processed
  rw [waited]
  generalize plan host.sources run.store vars r s.next = planned at processed
  obtain ⟨reason | resolved | _, next, ns⟩ := planned
  · rw [runFrom_bind_ok processed]
    refine (runFrom_bind_ok (runFrom_deliver _ _ _) _).trans ?_
    rw [Session.drawn_add, Session.add_add, ← List.append_assoc]
    rfl
  · rw [runFrom_bind_ok (processed.trans (runFrom_perform ..))]
    refine (runFrom_bind_ok (runFrom_deliver _ _ _) _).trans ?_
    rw [Session.drawn_add, Session.add_add, Session.add_add]
    rfl
  · rw [runFrom_bind_error processed]
    simp

theorem runFrom_requestsFrom_nil (host : Host σ) (config : RunConfig) (vars : List Variable)
    (total : Nat) (events : Option Nat) (run : FileRun) (index : Nat) (s : Session σ) :
    runFrom (requestsFrom host config vars total events run index []) s =
      (.ok (if events = some 0 then none else some run), s) := rfl

theorem runFrom_requestsFrom_cons (host : Host σ) (config : RunConfig) (vars : List Variable)
    (total : Nat) (events : Option Nat) (run : FileRun) (index : Nat) (r : Request)
    (rest : List Request) (s : Session σ) :
    runFrom (requestsFrom host config vars total events run index (r :: rest)) s =
      if events = some 0 then (.ok none, s)
      else if s.cancelled then
        (.ok (some { run with cancelled := true }),
          s.add [.note (.cancelled index total run.filename)])
      else
        match runFrom (pass host config vars total run index r) s with
        | (.ok run', s') =>
          runFrom (requestsFrom host config vars total (events.map (· - 1)) run' (index + 1) rest) s'
        | (.error f, s') => (.error f, s') := by
  rw [requestsFrom]
  by_cases hz : events = some 0
  · simp [hz]
  · simp only [if_neg hz]
    rw [runFrom_bind_ok (runFrom_get s)]
    by_cases hc : s.cancelled = true
    · simp only [if_pos hc]
      exact runFrom_bind_ok (runFrom_note _ s) _
    · simp only [if_neg hc]
      rw [runFrom_bind]
      generalize runFrom (pass host config vars total run index r) s = passed
      obtain ⟨_ | _, _⟩ := passed <;> rfl

theorem quiet_pauses (m : Option Nat) : Happening.Quiet (pauses m) := by
  rcases m with _ | _ | n <;> simp [pauses, Happening.Quiet, Happening.isQuiet]

theorem quiet_waits (config : RunConfig) (index : Nat) :
    Happening.Quiet (waits config index) := by
  unfold waits
  split
  · simp [Happening.Quiet]
  · exact quiet_pauses _

theorem quiet_note (n : Note) : Happening.Quiet [.note n] :=
  Happening.quiet_notes [n]

/-- How a session gets past a request against a store: by skipping it when it is not eligible, or by
sending it, in a form with the same plan, when it is. -/
inductive Passed (host : Host σ) (insecure : Bool) (total : Nat) (store : Store) (index : Nat)
    (r : Request) (s : Session σ) : Event → Session σ → Prop
  | skip {reason : String} {next : Nat} {quiet : List Happening} (refused : ¬ Eligible store r)
      (hq : Happening.Quiet quiet) :
      Passed host insecure total store index r s (.skipped index total r reason)
        (((s.drawn next).add quiet).shown host (.skipped index total r reason))
  | send {q : Request} {o : Outcome} {next : Nat} {before after : List Happening}
      (eligible : Eligible store r) (same : q.SamePlan r)
      (ho : o = verdict q (host.send q insecure s.world).1.outcome)
      (hb : Happening.Quiet before) (ha : Happening.Quiet after) :
      Passed host insecure total store index r s (.answered index total q o)
        (((((s.drawn next).add before).exchange host insecure q).add after).shown host
          (.answered index total q o))

/-- One request taken from the pause before it to its event, with all that happens on the way. -/
inductive Turn (host : Host σ) (config : RunConfig) (total : Nat) (store : Store) (index : Nat)
    (r : Request) (s : Session σ) : Event → Session σ → Prop
  | skip {reason : String} {next : Nat} {ns : List Note} {n : Note} (refused : ¬ Eligible store r) :
      Turn host config total store index r s (.skipped index total r reason)
        (((s.drawn next).add (waits config index ++ ns.map .note ++ [.note n])).shown host
          (.skipped index total r reason))
  | send {q : Request} {o : Outcome} {next : Nat} {ns : List Note} {n : Note}
      (eligible : Eligible store r) (same : q.SamePlan r)
      (ho : o = verdict q (host.send q config.insecure s.world).1.outcome) :
      Turn host config total store index r s (.answered index total q o)
        (((((s.drawn next).add (waits config index ++ ns.map .note ++ pauses r.preDelay)).exchange
          host config.insecure q).add (pauses r.postDelay ++ [.note n])).shown host
          (.answered index total q o))

theorem turn_of_pass {host : Host σ} {config : RunConfig} {vars : List Variable} {total : Nat}
    {run run' : FileRun} {index : Nat} {r : Request} {s s' : Session σ}
    (h : runFrom (pass host config vars total run index r) s = (.ok run', s')) :
    ∃ e, Turn host config total run.store index r s e s' ∧ run' = run.enter e := by
  rw [runFrom_pass] at h
  have eligible := plan_eligible host.sources run.store vars r s.next
  generalize plan host.sources run.store vars r s.next = planned at h eligible
  obtain ⟨reason | resolved | _, next, ns⟩ := planned
  · simp only [Prod.mk.injEq, Except.ok.injEq] at h
    obtain ⟨rfl, rfl⟩ := h
    exact ⟨_, .skip eligible, rfl⟩
  · simp only [Prod.mk.injEq, Except.ok.injEq] at h
    obtain ⟨rfl, rfl⟩ := h
    have same : (withTimeouts config resolved).SamePlan r := { eligible.2 with }
    rw [eligible.2.preDelay, eligible.2.postDelay]
    exact ⟨_, .send eligible.1 same rfl, rfl⟩
  · simp at h

theorem Turn.passed {host : Host σ} {config : RunConfig} {total : Nat} {store : Store} {index : Nat}
    {r : Request} {s s' : Session σ} {e : Event} (h : Turn host config total store index r s e s') :
    Passed host config.insecure total store index r s e s' := by
  have noted (ns : List Note) : Happening.Quiet (waits config index ++ ns.map .note) :=
    (quiet_waits config index).append (Happening.quiet_notes ns)
  cases h with
  | skip refused => exact .skip refused ((noted _).append (quiet_note _))
  | send eligible same ho =>
    exact .send eligible same ho ((noted _).append (quiet_pauses _))
      ((quiet_pauses _).append (quiet_note _))

theorem passed_of_pass {host : Host σ} {config : RunConfig} {vars : List Variable} {total : Nat}
    {run run' : FileRun} {index : Nat} {r : Request} {s s' : Session σ}
    (h : runFrom (pass host config vars total run index r) s = (.ok run', s')) :
    ∃ e, Passed host config.insecure total run.store index r s e s' ∧ run' = run.enter e := by
  obtain ⟨e, turn, entered⟩ := turn_of_pass h
  exact ⟨e, turn.passed, entered⟩

theorem quiet_of_pass_error {host : Host σ} {config : RunConfig} {vars : List Variable} {total : Nat}
    {run : FileRun} {index : Nat} {r : Request} {s s' : Session σ} {f : Failure}
    (h : runFrom (pass host config vars total run index r) s = (.error f, s')) :
    ∃ next quiet, Happening.Quiet quiet ∧ s' = (s.drawn next).add quiet := by
  rw [runFrom_pass] at h
  generalize plan host.sources run.store vars r s.next = planned at h
  obtain ⟨reason | resolved | _, next, ns⟩ := planned
  · simp at h
  · simp at h
  · simp only [Prod.mk.injEq] at h
    exact ⟨next, _, (quiet_waits config index).append (Happening.quiet_notes ns), h.2.symm⟩

end Run

end DotHttp
