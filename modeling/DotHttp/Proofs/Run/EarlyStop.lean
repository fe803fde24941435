import DotHttp.Proofs.Run.Prefix

/-!
Callbacks. What a callback says of an event is heeded before the next request only, so that a run
that is told to stop shows what it would have shown anyway, and ends there.
-/

namespace DotHttp

def Session.heeding (s : Session Dialogue) (callback : List Event → Bool) : Session Dialogue :=
  { s with cancelled := s.cancelled || !callback s.world.shown }

theorem Session.heeding_of_true {s : Session Dialogue} {callback : List Event → Bool}
    (h : callback s.world.shown = true) : s.heeding callback = s := by
  simp [heeding, h]

/-- After each of the first `k` events a callback lets the run go on. -/
def Permits (callback : List Event → Bool) (shown es : List Event) (k : Nat) : Prop :=
  ∀ j < k, callback (shown ++ es.take (j + 1)) = true

instance (callback : List Event → Bool) (shown es : List Event) (k : Nat) :
    Decidable (Permits callback shown es k) :=
  inferInstanceAs (Decidable (∀ j < k, callback (shown ++ es.take (j + 1)) = true))

theorem Permits.first {callback : List Event → Bool} {shown es : List Event} {e : Event} {k : Nat}
    (h : Permits callback shown (e :: es) (k + 1)) : callback (shown ++ [e]) = true :=
  h 0 (Nat.succ_pos k)

theorem Permits.rest {callback : List Event → Bool} {shown es : List Event} {e : Event} {k : Nat}
    (h : Permits callback shown (e :: es) (k + 1)) : Permits callback (shown ++ [e]) es k := by
  intro j hj
  have := h (j + 1) (Nat.succ_lt_succ hj)
  rwa [List.take_succ_cons, ← List.singleton_append, ← List.append_assoc] at this

namespace Run

variable {script : Script} {callback : List Event → Bool} {config : RunConfig}
  {vars : List Variable} {total : Nat} {events : Option Nat} {run : FileRun} {index : Nat}
  {s : Session Dialogue}

/-- A callback has no say in what happens at a request, only in what comes after. -/
theorem runFrom_pass_callback (script : Script) (callback : List Event → Bool) (config : RunConfig)
    (vars : List Variable) (total : Nat) (run : FileRun) (index : Nat) (r : Request)
    (s : Session Dialogue) :
    runFrom (pass (script.host callback) config vars total run index r) s =
      match runFrom (pass (script.host fun _ => true) config vars total run index r) s with
      | (.ok run', s') => (.ok run', s'.heeding callback)
      | (.error f, s') => (.error f, s') := by
  rw [runFrom_pass, runFrom_pass, Script.host_sources, Script.host_sources]
  generalize plan script.sources run.store vars r s.next = planned
  obtain ⟨reason | resolved | _, next, ns⟩ := planned
  · simp [Session.heeding, Session.shown, Script.host]
  · simp [Session.heeding, Session.shown, Script.host, Session.exchange, Session.add]
  · rfl

theorem requestsFrom_shown_cons {r : Request} {rest : List Request} {es : List Event}
    {run' : FileRun} {s₁ : Session Dialogue} (hz : events ≠ some 0) (hc : s.cancelled = false)
    (hp : runFrom (pass (script.host callback) config vars total run index r) s = (.ok run', s₁))
    (hes : (runFrom (requestsFrom (script.host callback) config vars total events run index
      (r :: rest)) s).2.world.shown = s.world.shown ++ es) :
    ∃ e es', es = e :: es' ∧ s₁.world.shown = s.world.shown ++ [e] ∧
      (runFrom (requestsFrom (script.host callback) config vars total (events.map (· - 1)) run'
        (index + 1) rest) s₁).2.world.shown = s₁.world.shown ++ es' := by
  obtain ⟨e, he⟩ := pass_shown hp
  obtain ⟨es', hes'⟩ := requestsFrom_shown script callback config vars total (events.map (· - 1))
    run' (index + 1) rest s₁
  rw [runFrom_requestsFrom_cons, if_neg hz, if_neg (by simp [hc]), hp] at hes
  dsimp only at hes
  rw [hes', he, List.append_assoc] at hes
  exact ⟨e, es', (List.append_cancel_left hes).symm, he, hes'⟩

/-- A callback that never asks to stop changes nothing. -/
theorem requestsFrom_of_permits {rs : List Request} {es : List Event}
    (hes : (runFrom (requestsFrom (script.host fun _ => true) config vars total events run index rs)
      s).2.world.shown = s.world.shown ++ es)
    (permits : Permits callback s.world.shown es es.length) :
    runFrom (requestsFrom (script.host callback) config vars total events run index rs) s =
      runFrom (requestsFrom (script.host fun _ => true) config vars total events run index rs) s := by
  induction rs generalizing events run index s es with
  | nil => rfl
  | cons r rest ih =>
    rw [runFrom_requestsFrom_cons, runFrom_requestsFrom_cons]
    by_cases hz : events = some 0
    · rw [if_pos hz, if_pos hz]
    rw [if_neg hz, if_neg hz]
    by_cases hc : s.cancelled = true
    · rw [if_pos hc, if_pos hc]
    rw [if_neg hc, if_neg hc, runFrom_pass_callback]
    cases hp : runFrom (pass (script.host fun _ => true) config vars total run index r) s with
    | mk passed s₁ =>
      cases passed with
      | error f => rfl
      | ok run' =>
        obtain ⟨e, es', rfl, he, hes'⟩ := requestsFrom_shown_cons hz (by simpa using hc) hp hes
        have goOn : callback s₁.world.shown = true := he ▸ permits.first
        dsimp only
        rw [Session.heeding_of_true goOn]
        exact ih hes' (he ▸ permits.rest)

theorem requestsFrom_of_cancelled (host : Host Dialogue) (config : RunConfig) (rs : List Request)
    (hc : s.cancelled = true) :
    ∃ run' s', runFrom (requestsFrom host config vars total none run index rs) s =
      (.ok (some run'), s') ∧ s'.world = s.world := by
  cases rs with
  | nil => exact ⟨run, s, by simp [runFrom_requestsFrom_nil], rfl⟩
  | cons r rest =>
    rw [runFrom_requestsFrom_cons, if_neg (by simp), if_pos hc]
    exact ⟨_, _, rfl, rfl⟩

/-- A run that a callback asks to stop after an event ends with this event. -/
theorem requestsFrom_of_stop {rs : List Request} {es : List Event} {k : Nat}
    (hes : (runFrom (requestsFrom (script.host fun _ => true) config vars total none run index rs)
      s).2.world.shown = s.world.shown ++ es)
    (hk : k < es.length) (permits : Permits callback s.world.shown es k)
    (stop : callback (s.world.shown ++ es.take (k + 1)) = false) :
    ∃ run' s', runFrom (requestsFrom (script.host callback) config vars total none run index rs) s =
      (.ok (some run'), s') ∧ s'.world.shown = s.world.shown ++ es.take (k + 1) := by
  induction rs generalizing run index s es k with
  | nil =>
    obtain rfl : es = [] := by simpa [runFrom_requestsFrom_nil] using hes
    simp at hk
  | cons r rest ih =>
    have whole := hes
    rw [runFrom_requestsFrom_cons, if_neg (by simp)] at hes
    by_cases hc : s.cancelled = true
    · obtain rfl : es = [] := by simpa [if_pos hc, Session.add] using hes
      simp at hk
    rw [if_neg hc] at hes
    rw [runFrom_requestsFrom_cons, if_neg (by simp), if_neg hc, runFrom_pass_callback]
    cases hp : runFrom (pass (script.host fun _ => true) config vars total run index r) s with
    | mk passed s₁ =>
      cases passed with
      | error f =>
        obtain ⟨next, quiet, -, rfl⟩ := quiet_of_pass_error hp
        obtain rfl : es = [] := by simpa [hp, Session.add, Session.drawn] using hes
        simp at hk
      | ok run' =>
        obtain ⟨e, es', rfl, he, hes'⟩ :=
          requestsFrom_shown_cons (by simp) (by simpa using hc) hp whole
        cases k with
        | zero =>
          -- The event itself is still shown; only the next request is not come to.
          have stopped : (s₁.heeding callback).cancelled = true := by
            simp only [List.take_succ_cons, List.take_zero, ← he] at stop
            simp [Session.heeding, stop]
          obtain ⟨run'', s', hrun, hw⟩ := requestsFrom_of_cancelled
            (script.host callback) config rest stopped
          refine ⟨run'', s', hrun, ?_⟩
          rw [hw]
          exact he
        | succ k =>
          have goOn : callback s₁.world.shown = true := he ▸ permits.first
          dsimp only
          rw [Session.heeding_of_true goOn]
          have more : s.world.shown ++ (e :: es').take (k + 2) =
              s₁.world.shown ++ es'.take (k + 1) := by
            rw [he, List.append_assoc]; rfl
          rw [more] at stop ⊢
          exact ih hes' (by simpa using hk) (he ▸ permits.rest) stop

/-- A run that ends with the first `k + 1` events of another over the same requests. -/
structure StoppedAfter (k : Nat) (rs : List Request) (hs : List Happening) (run : FileRun)
    (hs' : List Happening) : Prop where
  events : Happening.events hs' = (Happening.events hs).take (k + 1)
  sends : Happening.sendsByEvent hs' = ((Happening.sendsByEvent hs).1.take (k + 1), [])
  contexts : run.store.contexts = ((Happening.events hs).take (k + 1)).map Event.context
  succeeded : run.succeeded = ((Happening.events hs).take (k + 1)).countP (·.status = .succeeded)
  failed : run.failed = ((Happening.events hs).take (k + 1)).countP (·.status = .failed)
  skipped : run.skipped = ((Happening.events hs).take (k + 1)).countP (·.status = .skipped)
  cancelled : run.cancelled = true ↔ k + 1 < rs.length

theorem Stopped.stoppedAfter {path : String} {rs : List Request} {k : Nat}
    {hs hs' : List Happening} {s' : Session Dialogue}
    (h : Stopped path rs (Happening.events hs') s (.ok (some run)) s')
    (same : Happening.events hs' = (Happening.events hs).take (k + 1))
    (hk : k < (Happening.events hs).length)
    (sends : Happening.sendsByEvent hs =
      ((Happening.events hs).map fun e => e.context.sent, []))
    (sends' : Happening.sendsByEvent hs' =
      ((Happening.events hs').map fun e => e.context.sent, [])) :
    StoppedAfter k rs hs run hs' := by
  have length : (Happening.events hs').length = k + 1 := by
    rw [same, List.length_take, Nat.min_eq_left hk]
  rw [h.run_eq, FileRun.ofEvents_eq]
  exact
    { events := same
      sends := by rw [sends', sends, same, List.map_take]
      contexts := by rw [← same]; rfl
      succeeded := by rw [← same]
      failed := by rw [← same]
      skipped := by rw [← same]
      cancelled := by rw [decide_eq_true_iff, length] }

theorem requests_agree {filename : String} {rs₁ rs₂ : List Request} {k : Nat}
    (blind : BlindToTotal callback) (h : rs₁.take k = rs₂.take k)
    {r₁ r₂ : Except Failure (Option FileRun) × Session Dialogue}
    (h₁ : runFrom (requests (script.host callback) config vars events filename rs₁) s = r₁)
    (h₂ : runFrom (requests (script.host callback) config vars events filename rs₂) s = r₂) :
    ∃ hs₁ hs₂, r₁.2.happenings = s.happenings ++ hs₁ ∧ r₂.2.happenings = s.happenings ++ hs₂ ∧
      ((Happening.events hs₁).take k).map Event.untotalled =
        ((Happening.events hs₂).take k).map Event.untotalled ∧
      ∀ run₁ run₂, r₁.1 = .ok (some run₁) → r₂.1 = .ok (some run₂) →
        run₁.store.contexts.take k = run₂.store.contexts.take k := by
  obtain ⟨es, ds, hes, hds, same⟩ : ShownAlike k s s r₁.2 r₂.2 := by
    rw [← h₁, ← h₂]
    exact requestsFrom_shownAlike (.refl s) blind h
  obtain ⟨es', s₁, hs₁, reached₁, stopped₁, happened₁, rfl, -⟩ := requests_stops h₁
  obtain ⟨ds', s₂, hs₂, reached₂, stopped₂, happened₂, rfl, -⟩ := requests_stops h₂
  rw [stopped₁.world, reached₁.shown, List.append_cancel_left_eq] at hes
  rw [stopped₂.world, reached₂.shown, List.append_cancel_left_eq] at hds
  subst hes hds
  refine ⟨hs₁, hs₂, happened₁, happened₂, same, fun run₁ run₂ hr₁ hr₂ => ?_⟩
  rw [hr₁] at stopped₁
  rw [hr₂] at stopped₂
  have contexts := congrArg (List.map Event.context) same
  rw [List.map_map, List.map_map, Event.context_comp_untotalled] at contexts
  rw [stopped₁.contexts, stopped₂.contexts, ← List.map_take, ← List.map_take, contexts]

theorem wholeFile_shown {tree : FileTree} {path : String} {rs : List Request} {ns : List Note}
    {hs : List Happening} (h : prepare tree config path = (.ok (rs, vars), ns))
    (happened : (runFrom (wholeFile tree (script.host callback) config path) s).2.happenings =
      s.happenings ++ hs) :
    (runFrom (requests (script.host callback) config vars none path rs)
      (s.add (ns.map .note))).2.world.shown = s.world.shown ++ Happening.events hs := by
  obtain ⟨es, s₁, hs', reached, stopped, happened', rfl, -⟩ :=
    wholeFile_stops (script.host callback) h s
  rw [happened', List.append_cancel_left_eq] at happened
  subst happened
  rw [requests_of_wholeFile h, stopped.world, reached.shown]
  rfl

theorem wholeFile_of_permits {tree : FileTree} {path : String} {hs : List Happening}
    (happened : (runFrom (wholeFile tree (script.host fun _ => true) config path) s).2.happenings =
      s.happenings ++ hs)
    (permits : Permits callback s.world.shown (Happening.events hs) (Happening.events hs).length) :
    runFrom (wholeFile tree (script.host callback) config path) s =
      runFrom (wholeFile tree (script.host fun _ => true) config path) s := by
  cases hp : prepare tree config path with
  | mk prepared ns =>
    cases prepared with
    | error f => rw [wholeFile_of_failure hp, wholeFile_of_failure hp]
    | ok read =>
      have same := requestsFrom_of_permits (wholeFile_shown hp happened) permits
      exact wholeFile_of_requests hp (same.trans (requests_of_wholeFile hp s))

theorem wholeFile_of_stop {tree : FileTree} {path : String} {hs : List Happening} {k : Nat}
    (happened : (runFrom (wholeFile tree (script.host fun _ => true) config path) s).2.happenings =
      s.happenings ++ hs)
    (hk : k < (Happening.events hs).length)
    (permits : Permits callback s.world.shown (Happening.events hs) k)
    (stop : callback (s.world.shown ++ (Happening.events hs).take (k + 1)) = false) :
    ∃ rs run s' hs',
      runFrom (wholeFile tree (script.host callback) config path) s = (.ok run, s') ∧
      (load tree [] path).1 = .ok rs ∧ s'.happenings = s.happenings ++ hs' ∧
      StoppedAfter k rs hs run hs' ∧
      s'.world.received = s.world.received ++ Happening.sends hs' ∧
      s'.world.shown = s.world.shown ++ Happening.events hs' ∧
      ∀ run₀, (runFrom (wholeFile tree (script.host fun _ => true) config path) s).1 = .ok run₀ →
        run.store.contexts = run₀.store.contexts.take (k + 1) := by
  cases hp : prepare tree config path with
  | mk prepared ns =>
    cases prepared with
    | error f =>
      rw [wholeFile_of_failure hp, Session.add, List.append_cancel_left_eq] at happened
      rw [← happened, (Happening.quiet_notes ns).events] at hk
      simp at hk
    | ok read =>
      obtain ⟨rs, vars⟩ := read
      obtain ⟨run, s', hrun, shown⟩ :=
        requestsFrom_of_stop (wholeFile_shown hp happened) hk permits stop
      have interrupted : runFrom (wholeFile tree (script.host callback) config path) s =
          (.ok run, s') := wholeFile_of_requests hp hrun
      obtain ⟨es₀, s₀, hs₀, reached₀, stopped₀, happened₀, rfl, sends₀⟩ :=
        wholeFile_stops (script.host fun _ => true) hp s
      rw [happened₀, List.append_cancel_left_eq] at happened
      subst happened
      obtain ⟨es, s₁, hs', reached, stopped, happened', hes, sends⟩ :=
        wholeFile_stops (script.host callback) hp s
      rw [interrupted] at stopped happened'
      dsimp only [Except.map] at stopped happened'
      subst hes
      have same : Happening.events hs' = (Happening.events hs₀).take (k + 1) := by
        rw [stopped.world, reached.shown] at shown
        exact List.append_cancel_left shown
      refine ⟨rs, run, s', hs', interrupted, load_of_prepare hp, happened',
        stopped.stoppedAfter same hk sends₀ sends, ?_, ?_, fun run₀ hr₀ => ?_⟩
      · rw [stopped.world]
        exact reached.logged_sends (script.host_logs callback) sends
      · rw [shown, same]
        rfl
      · rw [hr₀] at stopped₀
        rw [stopped.contexts, same, stopped₀.contexts, List.map_take]

/-- Up to totals, the events of a run up to a position come from the requests up to it, and so do the
contexts. A callback that asks to stop at an event ends the run with this event; one that never does
changes nothing, nor does it matter whether the events are taken one by one. -/
theorem runs_causal (script : Script) (config : RunConfig) :
    (∀ callback vars events filename rs₁ rs₂ k s, BlindToTotal callback →
      rs₁.take k = rs₂.take k →
      let r₁ := runFrom (requests (script.host callback) config vars events filename rs₁) s
      let r₂ := runFrom (requests (script.host callback) config vars events filename rs₂) s
      ∃ hs₁ hs₂, r₁.2.happenings = s.happenings ++ hs₁ ∧ r₂.2.happenings = s.happenings ++ hs₂ ∧
        ((Happening.events hs₁).take k).map Event.untotalled =
          ((Happening.events hs₂).take k).map Event.untotalled ∧
        ∀ run₁ run₂, r₁.1 = .ok (some run₁) → r₂.1 = .ok (some run₂) →
          run₁.store.contexts.take k = run₂.store.contexts.take k) ∧
    ∀ tree path s,
      let whole := runFrom (wholeFile tree (script.host fun _ => true) config path) s
      ∃ hs, whole.2.happenings = s.happenings ++ hs ∧
        (∀ callback k, k < (Happening.events hs).length →
          Permits callback s.world.shown (Happening.events hs) k →
          callback (s.world.shown ++ (Happening.events hs).take (k + 1)) = false →
          ∃ rs run s' hs',
            runFrom (wholeFile tree (script.host callback) config path) s = (.ok run, s') ∧
            (load tree [] path).1 = .ok rs ∧ s'.happenings = s.happenings ++ hs' ∧
            StoppedAfter k rs hs run hs' ∧
            s'.world.received = s.world.received ++ Happening.sends hs' ∧
            s'.world.shown = s.world.shown ++ Happening.events hs' ∧
            ∀ run₀, whole.1 = .ok run₀ →
              run.store.contexts = run₀.store.contexts.take (k + 1)) ∧
        (∀ callback, Permits callback s.world.shown (Happening.events hs)
            (Happening.events hs).length →
          runFrom (wholeFile tree (script.host callback) config path) s = whole) ∧
        ∀ events,
          let taken := runFrom (file tree (script.host fun _ => true) config events path) s
          (events = none → taken.1 ≠ .ok none) ∧
            (taken.1 ≠ .ok none → taken = (whole.1.map some, whole.2)) := by
  refine ⟨fun callback vars events filename rs₁ rs₂ k s blind h => requests_agree blind h rfl rfl,
    fun tree path s => ?_⟩
  obtain ⟨hs, happened⟩ := happenings_wholeFile tree (script.host fun _ => true) config path s
  refine ⟨hs, happened, ?_, ?_, fun events => ⟨?_, file_eq_wholeFile⟩⟩
  · exact fun callback k hk permits stop => wholeFile_of_stop happened hk permits stop
  · exact fun callback permits => wholeFile_of_permits happened permits
  · rintro rfl
    exact file_ends _ _ _ _ _

/-- A tree with one file, which has three requests. -/
def threeRequests : FileTree where
  nodes := [(["a.http"], .file "GET https://a\n###\nGET https://b\n###\nGET https://c".toUTF8.toList)]
  workingDirectory := []
  homeDirectory := []
  mount := ""
  nodup := by decide

theorem runs_causal_for_three :
    let script := Script.ofStatuses [200, 404]
    let run rs := runFrom (requests (script.host fun _ => true) .default [] none "a.http" rs) .fresh
    let whole callback :=
      runFrom (wholeFile threeRequests (script.host callback) .default "a.http") .fresh
    (∃ hs₁ hs₂, (run [.get "a" none, .get "b" none]).2.happenings = hs₁ ∧
      (run [.get "a" none, .get "c" none, .get "d" none]).2.happenings = hs₂ ∧
      ((Happening.events hs₁).take 1).map Event.untotalled =
        ((Happening.events hs₂).take 1).map Event.untotalled) ∧
    (∃ rs hs' stopped s', whole (fun es => es.length < 2) = (.ok stopped, s') ∧
      StoppedAfter 1 rs (whole fun _ => true).2.happenings stopped hs') ∧
    whole (fun es => es.length < 9) = whole fun _ => true := by
  intro script run whole
  obtain ⟨causal, rest⟩ := runs_causal script .default
  obtain ⟨hs, happened, stops, unstopped, -⟩ := rest threeRequests "a.http" .fresh
  obtain rfl : (whole fun _ => true).2.happenings = hs := happened
  refine ⟨?_, ?_, ?_⟩
  · obtain ⟨hs₁, hs₂, happened₁, happened₂, same, -⟩ := causal (fun _ => true) [] none "a.http"
      [.get "a" none, .get "b" none] [.get "a" none, .get "c" none, .get "d" none] 1 .fresh
      (fun _ => rfl) rfl
    exact ⟨hs₁, hs₂, happened₁, happened₂, same⟩
  · obtain ⟨rs, stopped, s', hs', interrupted, -, -, after, -⟩ := stops (fun es => es.length < 2) 1
      (by decide +kernel) (by decide +kernel) (by decide +kernel)
    exact ⟨rs, hs', stopped, s', interrupted, after⟩
  · exact unstopped (fun es => es.length < 9) (by decide +kernel)

end Run

end DotHttp
