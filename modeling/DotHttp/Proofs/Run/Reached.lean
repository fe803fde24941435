import DotHttp.Proofs.Run.Pass
import Mathlib.Data.List.Induction

/-!
The sessions that a run over requests comes through between one request and the next. Where a run
stops, for whatever reason, it stands at such a session, and its counts and contexts are those of the
events reported so far.
-/

namespace DotHttp

variable {σ : Type}

def Context.sent (c : Context) : List Request :=
  if c.outcome.isSome then [c.request] else []

def Store.ofEvents (es : List Event) : Store :=
  ⟨es.map Event.context⟩

namespace FileRun

def ofEvents (filename : String) (es : List Event) : FileRun :=
  es.foldl enter (.start filename)

theorem ofEvents_concat (filename : String) (es : List Event) (e : Event) :
    ofEvents filename (es ++ [e]) = (ofEvents filename es).enter e := by
  simp only [ofEvents, List.foldl_append, List.foldl_cons, List.foldl_nil]

/-- Entering events records their contexts in order and counts each status. -/
theorem ofEvents_eq (filename : String) (es : List Event) :
    ofEvents filename es =
      { filename
        store := .ofEvents es
        succeeded := es.countP (·.status = .succeeded)
        failed := es.countP (·.status = .failed)
        skipped := es.countP (·.status = .skipped)
        cancelled := false } := by
  induction es using List.reverseRecOn with
  | nil => rfl
  | append_singleton es e ih =>
    rw [ofEvents_concat, ih]
    cases hs : e.status <;> simp [enter, count, Store.ofEvents, hs]

end FileRun

namespace Run

/-- The sessions that a run over requests reaches between two of them, with the events so far. -/
inductive Reached (host : Host σ) (insecure : Bool) (rs : List Request) (s₀ : Session σ) :
    List Event → Session σ → Prop
  | start : Reached host insecure rs s₀ [] s₀
  | pass {es : List Event} {s s' : Session σ} {r : Request} {e : Event}
      (h : Reached host insecure rs s₀ es s) (hr : rs[es.length]? = some r)
      (goOn : s.cancelled = false)
      (hp : Passed host insecure rs.length (.ofEvents es) es.length r s e s') :
      Reached host insecure rs s₀ (es ++ [e]) s'

/-- How a run over requests stops at a session it has reached. -/
inductive Stopped (filename : String) (rs : List Request) (es : List Event) (s : Session σ) :
    Except Failure (Option FileRun) → Session σ → Prop
  | finished (h : es.length = rs.length) :
      Stopped filename rs es s (.ok (some (.ofEvents filename es))) s
  | cancelled (h : es.length < rs.length) (hc : s.cancelled = true) :
      Stopped filename rs es s (.ok (some { FileRun.ofEvents filename es with cancelled := true }))
        (s.add [.note (.cancelled es.length rs.length filename)])
  /-- No more events are taken. -/
  | left : Stopped filename rs es s (.ok none) s
  | failed {f : Failure} {next : Nat} {quiet : List Happening} (h : es.length < rs.length)
      (hq : Happening.Quiet quiet) :
      Stopped filename rs es s (.error f) ((s.drawn next).add quiet)

variable {host : Host σ} {config : RunConfig} {vars : List Variable} {filename : String}
  {rs : List Request} {s₀ s s' : Session σ} {result : Except Failure (Option FileRun)}

/-- A run with a result has entered the events so far, and is cancelled if a request was left. -/
theorem Stopped.run_eq {es : List Event} {run : FileRun}
    (h : Stopped filename rs es s (.ok (some run)) s') :
    run = { FileRun.ofEvents filename es with cancelled := decide (es.length < rs.length) } := by
  cases h with
  | finished hl => simp [FileRun.ofEvents_eq, hl]
  | cancelled hl hc => simp [hl]

theorem Stopped.contexts {es : List Event} {run : FileRun}
    (h : Stopped filename rs es s (.ok (some run)) s') :
    run.store.contexts = es.map Event.context := by
  rw [h.run_eq, FileRun.ofEvents_eq]
  rfl

theorem Reached.length_le {insecure : Bool} {es : List Event} (h : Reached host insecure rs s₀ es s) :
    es.length ≤ rs.length := by
  cases h with
  | start => exact Nat.zero_le _
  | pass h hr goOn hp =>
    have := (List.getElem?_eq_some_iff.1 hr).1
    simp only [List.length_append, List.length_singleton]
    omega

theorem requestsFrom_stops {events : Option Nat} {es : List Event} {rest : List Request}
    (hs : Reached host config.insecure rs s₀ es s) (hrest : rs.drop es.length = rest)
    (h : runFrom (requestsFrom host config vars rs.length events (.ofEvents filename es) es.length
      rest) s = (result, s')) :
    ∃ es' s₁, Reached host config.insecure rs s₀ es' s₁ ∧ Stopped filename rs es' s₁ result s' := by
  -- On the requests left; `hs` says that the run so far is the one of the events so far.
  induction rest generalizing events es s with
  | nil =>
    refine ⟨es, s, hs, ?_⟩
    have hlen : es.length = rs.length :=
      Nat.le_antisymm hs.length_le (List.drop_eq_nil_iff.1 hrest)
    rw [runFrom_requestsFrom_nil] at h
    split at h
    · cases h; exact .left
    · cases h; exact .finished hlen
  | cons r rest ih =>
    have hr : rs[es.length]? = some r := by rw [← List.head?_drop, hrest]; rfl
    have hlt : es.length < rs.length := (List.getElem?_eq_some_iff.1 hr).1
    rw [runFrom_requestsFrom_cons] at h
    split at h
    · cases h
      exact ⟨es, _, hs, .left⟩
    · split at h
      · next hc =>
        cases h
        have stop : Stopped filename rs es s _ _ := .cancelled hlt hc
        exact ⟨es, s, hs, by simpa only [FileRun.ofEvents_eq] using stop⟩
      · next hc =>
        cases hp : runFrom (pass host config vars rs.length (.ofEvents filename es) es.length r) s with
        | mk passed s₁ =>
          rw [hp] at h
          cases passed with
          | error f =>
            cases h
            obtain ⟨next, quiet, hq, rfl⟩ := quiet_of_pass_error hp
            exact ⟨es, s, hs, .failed hlt hq⟩
          | ok run =>
            obtain ⟨e, he, rfl⟩ := passed_of_pass hp
            rw [FileRun.ofEvents_eq] at he
            have goOn : s.cancelled = false := by simpa using hc
            have reached := hs.pass hr goOn he
            apply ih reached
            · rw [List.length_append, List.length_singleton, ← List.tail_drop, hrest]; rfl
            · rw [FileRun.ofEvents_concat, List.length_append, List.length_singleton]
              exact h

theorem Passed.trace {insecure : Bool} {total index : Nat} {store : Store} {r : Request} {e : Event}
    (h : Passed host insecure total store index r s e s') :
    ∃ hs, s'.happenings = s.happenings ++ hs ∧ Happening.events hs = [e] ∧
      ∀ p, hs.foldl Happening.collect p = (p.1 ++ [p.2 ++ e.context.sent], []) := by
  cases h with
  | @skip reason next quiet refused hq =>
    refine ⟨quiet ++ [.event (.skipped index total r reason)], ?_, ?_, fun p => ?_⟩
    · simp [Session.shown, Session.add, Session.drawn]
    · rw [Happening.events_append, hq.events]; rfl
    · rw [List.foldl_append, hq.foldl_collect]
      simp [Happening.collect, Context.sent, Event.context, Event.skipped]
  | @send q o next before after eligible same ho hb ha =>
    let remarks := (host.send q insecure s.world).1.remarks.map Remark.happening
    have hr : Happening.Quiet remarks := Happening.quiet_remarks _
    have sent : Happening.events [.send q insecure] = [] := rfl
    refine ⟨before ++ ([.send q insecure] ++ (remarks ++
      (after ++ [.event (.answered index total q o)]))), ?_, ?_, fun p => ?_⟩
    · simp [Session.shown, Session.exchange, Session.add, Session.drawn, remarks]
    · simp only [Happening.events_append, hb.events, sent, hr.events, ha.events]; rfl
    · simp only [List.foldl_append, hb.foldl_collect, hr.foldl_collect, ha.foldl_collect]
      simp [Happening.collect, Context.sent, Event.context, Event.answered]

theorem Reached.trace {insecure : Bool} {es : List Event} (h : Reached host insecure rs s₀ es s) :
    ∃ hs, s.happenings = s₀.happenings ++ hs ∧ Happening.events hs = es ∧
      Happening.sendsByEvent hs = (es.map fun e => e.context.sent, []) := by
  induction h with
  | start => exact ⟨[], by simp, rfl, rfl⟩
  | pass h hr goOn hp ih =>
    obtain ⟨hs, happened, events, sends⟩ := ih
    obtain ⟨hs', happened', events', sends'⟩ := hp.trace
    refine ⟨hs ++ hs', ?_, ?_, ?_⟩
    · rw [happened', happened, List.append_assoc]
    · rw [Happening.events_append, events, events']
    · rw [Happening.sendsByEvent_append, sends, sends']
      simp

/-- Each event comes from passing its request against the contexts of the events before it. -/
theorem Reached.history {insecure : Bool} {es : List Event}
    (h : Reached host insecure rs s₀ es s) {i : Nat} {e : Event} (he : es[i]? = some e) :
    ∃ r s₁ s₂, rs[i]? = some r ∧
      Passed host insecure rs.length (.ofEvents (es.take i)) i r s₁ e s₂ := by
  induction h with
  | start => simp at he
  | @pass es s₁ s₂ r e' h hr goOn hp ih =>
    rcases Nat.lt_trichotomy i es.length with hi | rfl | hi
    · rw [List.getElem?_append_left hi] at he
      rw [List.take_append_of_le_length (Nat.le_of_lt hi)]
      exact ih he
    · rw [List.getElem?_concat_length, Option.some.injEq] at he
      subst e'
      rw [List.take_left]
      exact ⟨r, s₁, s₂, hr, hp⟩
    · rw [List.getElem?_eq_none (by simp; omega)] at he
      cases he

/-- What every run leaves behind, however it stops: a session it has reached, with the events that
were reported and, between them, the requests that were sent. -/
theorem requests_stops {events : Option Nat}
    (h : runFrom (requests host config vars events filename rs) s₀ = (result, s')) :
    ∃ es s hs, Reached host config.insecure rs s₀ es s ∧ Stopped filename rs es s result s' ∧
      s'.happenings = s₀.happenings ++ hs ∧ Happening.events hs = es ∧
      Happening.sendsByEvent hs = (es.map fun e => e.context.sent, []) := by
  obtain ⟨es, s, reached, stopped⟩ := requestsFrom_stops .start rfl h
  obtain ⟨hs, happened, events, sends⟩ := reached.trace
  -- What a stop adds to the trace is quiet.
  have more {quiet : List Happening} (hq : Happening.Quiet quiet) :
      Happening.events (hs ++ quiet) = es ∧
        Happening.sendsByEvent (hs ++ quiet) = (es.map fun e => e.context.sent, []) := by
    rw [Happening.events_append, hq.events, List.append_nil, Happening.sendsByEvent_append,
      hq.foldl_collect]
    exact ⟨events, sends⟩
  cases stopped with
  | finished hl => exact ⟨es, _, hs, reached, .finished hl, happened, events, sends⟩
  | left => exact ⟨es, _, hs, reached, .left, happened, events, sends⟩
  | cancelled hl hc =>
    refine ⟨es, s, _, reached, .cancelled hl hc, ?_,
      more (quiet_note (.cancelled es.length rs.length filename))⟩
    simp [Session.add, happened]
  | failed hl hq =>
    refine ⟨es, s, _, reached, .failed hl hq, ?_, more hq⟩
    simp [Session.add, Session.drawn, happened]

end Run

end DotHttp
