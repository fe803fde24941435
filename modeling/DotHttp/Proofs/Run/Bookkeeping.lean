import DotHttp.Proofs.Run.Scripted

/-!
The books of a run. Counts, contexts, events and the mark of a cancelled run are kept in different
places; at the end of every run they tell the same story of the requests that were reached.
-/

namespace DotHttp.Run

variable {σ : Type}

/-- An event and a context that tell the same of the request at an index. -/
structure Recorded (n i : Nat) (r : Request) (e : Event) (c : Context) : Prop where
  index : e.index = i
  total : e.total = n
  name : c.name = e.name
  request : c.request = e.request
  outcome : c.outcome = e.outcome
  ownName : ∀ name, r.name = some name → name ≠ "" → c.name = name
  madeName : r.name = none ∨ r.name = some "" → c.name = s!"request_{i + 1}"
  plan : c.request.SamePlan r
  skipped : c.outcome = none ↔ e.status = .skipped
  succeeded : (∃ o, c.outcome = some o ∧ o.success = true) ↔ e.status = .succeeded

structure Books (rs : List Request) (run : FileRun) (es : List Event) : Prop where
  total : run.succeeded + run.failed + run.skipped = es.length
  contexts : run.store.contexts.length = es.length
  recorded : ∀ i e, es[i]? = some e → ∃ r c,
    rs[i]? = some r ∧ run.store.contexts[i]? = some c ∧ Recorded rs.length i r e c
  succeeded : run.succeeded = es.countP (·.status = .succeeded)
  failed : run.failed = es.countP (·.status = .failed)
  skipped : run.skipped = es.countP (·.status = .skipped)
  cancelled : run.cancelled = true ↔ es.length < rs.length

theorem nameFor_of_named {r : Request} {name : String} (h : r.name = some name) (hn : name ≠ "")
    (position : Int) : Store.nameFor r position = name := by
  simp only [Store.nameFor, h, if_neg hn]

theorem nameFor_of_unnamed {r : Request} (h : r.name = none ∨ r.name = some "") (index : Nat) :
    Store.nameFor r (index + 1) = s!"request_{index + 1}" := by
  rcases h with h | h <;> simp only [Store.nameFor, h, if_true] <;> rfl

theorem Passed.recorded {host : Host σ} {insecure : Bool} {total index : Nat} {store : Store}
    {r : Request} {s s' : Session σ} {e : Event}
    (h : Passed host insecure total store index r s e s') :
    Recorded total index r e e.context := by
  cases h with
  | skip refused hq =>
    exact
      { index := rfl, total := rfl, name := rfl, request := rfl, outcome := rfl
        ownName := fun name h hn => nameFor_of_named h hn _
        madeName := fun h => nameFor_of_unnamed h _
        plan := ⟨rfl, rfl, rfl, rfl, rfl, rfl, rfl⟩
        skipped := ⟨fun _ => rfl, fun _ => rfl⟩
        succeeded := by simp [Event.context, Event.skipped] }
  | @send q o next before after eligible same ho hb ha =>
    have status : (Event.answered index total q o).status =
      if o.success then .succeeded else .failed := rfl
    exact
      { index := rfl, total := rfl, name := rfl, request := rfl, outcome := rfl
        ownName := fun name h hn => nameFor_of_named (same.name.trans h) hn _
        madeName := fun h => nameFor_of_unnamed (by rwa [same.name]) _
        plan := same
        skipped := by rw [status]; cases o.success <;> simp [Event.context, Event.answered]
        succeeded := by
          rw [status]
          cases ho : o.success <;> simp [Event.context, Event.answered, ho] }

theorem countP_statuses (es : List Event) :
    es.countP (·.status = .succeeded) + es.countP (·.status = .failed) +
      es.countP (·.status = .skipped) = es.length := by
  induction es with
  | nil => rfl
  | cons e rest ih =>
    simp only [List.countP_cons, List.length_cons, ← ih]
    cases e.status <;> simp <;> omega

theorem Reached.books {host : Host σ} {insecure : Bool} {rs : List Request} {s₀ s : Session σ}
    {es : List Event} (h : Reached host insecure rs s₀ es s) (filename : String) :
    Books rs { FileRun.ofEvents filename es with cancelled := decide (es.length < rs.length) } es := by
  rw [FileRun.ofEvents_eq]
  exact
    { total := countP_statuses es
      contexts := List.length_map ..
      recorded := by
        intro i e he
        obtain ⟨r, s₁, s₂, hr, hp⟩ := h.history he
        exact ⟨r, e.context, hr, by simp [Store.ofEvents, he], hp.recorded⟩
      succeeded := rfl, failed := rfl, skipped := rfl
      cancelled := decide_eq_true_iff }

/-- Whatever is skipped, fails or succeeds, and whenever cancellation is asked for, a run that ends
leaves its counts, its contexts and its events in agreement. -/
theorem requests_books {host : Host σ} {config : RunConfig} {vars : List Variable}
    {events : Option Nat} {filename : String} {rs : List Request} {run : FileRun}
    {s s' : Session σ}
    (h : runFrom (requests host config vars events filename rs) s = (.ok (some run), s')) :
    ∃ hs, s'.happenings = s.happenings ++ hs ∧ Books rs run (Happening.events hs) := by
  obtain ⟨es, s₁, hs, reached, stopped, happened, rfl, -⟩ := requests_stops h
  rw [stopped.run_eq]
  exact ⟨hs, happened, reached.books filename⟩

/-- The second request of three is skipped, and the callback asks to stop there. -/
theorem requests_books_stopped_at_skip :
    ∃ run s', runFrom (requests ((Script.ofStatuses [200]).host fun es => es.length < 2) .default []
        none "a.http" [.get "a" none, .get "b" (some "x"), .get "c" none]) .fresh =
        (.ok (some run), s') ∧
      (run.cancelled ∧ run.succeeded = 1 ∧ run.skipped = 1) ∧
      ∃ hs, s'.happenings = Session.fresh.happenings ++ hs ∧
        Books [.get "a" none, .get "b" (some "x"), .get "c" none] run (Happening.events hs) := by
  obtain ⟨run, s', h, counts⟩ := exists_of_endsWith
    (show endsWith (runFrom (requests ((Script.ofStatuses [200]).host fun es => es.length < 2)
        .default [] none "a.http" [.get "a" none, .get "b" (some "x"), .get "c" none]) .fresh)
      (fun run => run.cancelled ∧ run.succeeded = 1 ∧ run.skipped = 1) = true by decide +kernel)
  exact ⟨run, s', h, of_decide_eq_true counts, requests_books h⟩

end DotHttp.Run
