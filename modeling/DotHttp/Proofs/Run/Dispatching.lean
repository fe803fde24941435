import DotHttp.Proofs.Run.Scripted

/-!
Which requests are sent. At every position that a run reaches, the request is sent exactly once if the
contexts recorded before it make it eligible, and never otherwise.
-/

namespace DotHttp.Run

variable {σ : Type}

/-- What was sent for a request, and recorded of it, against the store it was met with. -/
structure Dispatched (store : Store) (r : Request) (c : Context) (sent : List Request) : Prop where
  eligible : Eligible store r → sent = [c.request] ∧ c.outcome.isSome = true
  refused : ¬ Eligible store r → sent = [] ∧ c.request = r ∧ c.outcome = none

theorem Passed.dispatched {host : Host σ} {insecure : Bool} {total index : Nat} {store : Store}
    {r : Request} {s s' : Session σ} {e : Event}
    (h : Passed host insecure total store index r s e s') :
    Dispatched store r e.context e.context.sent := by
  cases h with
  | skip refused hq => exact ⟨fun h => (refused h).elim, fun _ => ⟨rfl, rfl, rfl⟩⟩
  | send eligible same ho hb ha => exact ⟨fun _ => ⟨rfl, rfl⟩, fun h => (h eligible).elim⟩

theorem flatMap_sent (es : List Event) :
    (es.flatMap fun e => e.context.sent) =
      ((es.map Event.context).filter (·.outcome.isSome)).map (·.request) := by
  induction es with
  | nil => rfl
  | cons e rest ih =>
    rw [List.flatMap_cons, ih, List.map_cons]
    cases ho : e.context.outcome.isSome <;> simp [Context.sent, ho]

/-- In a run that ends, a request is sent once exactly when what was recorded before it allows it, and
the requests sent are those recorded with an outcome, in the same order. -/
theorem requests_send_eligible {host : Host σ} {config : RunConfig} {vars : List Variable}
    {events : Option Nat} {filename : String} {rs : List Request} {run : FileRun}
    {s s' : Session σ}
    (h : runFrom (requests host config vars events filename rs) s = (.ok (some run), s')) :
    ∃ hs, s'.happenings = s.happenings ++ hs ∧
      (∀ i c, run.store.contexts[i]? = some c →
        ∃ r sent, rs[i]? = some r ∧ (Happening.sendsByEvent hs).1[i]? = some sent ∧
          Dispatched ⟨run.store.contexts.take i⟩ r c sent) ∧
      (Happening.sendsByEvent hs).1.length = run.store.contexts.length ∧
      (Happening.sendsByEvent hs).2 = [] ∧
      Happening.sends hs =
        (run.store.contexts.filter (·.outcome.isSome)).map (·.request) ∧
      ∀ log, host.Logs log → log s'.world = log s.world ++ Happening.sends hs := by
  obtain ⟨es, s₁, hs, reached, stopped, happened, -, sends⟩ := requests_stops h
  have contexts := stopped.contexts
  have sent : Happening.sends hs = es.flatMap fun e => e.context.sent := by
    rw [Happening.sends_eq_flatten, sends, List.append_nil, List.flatMap_def]
  refine ⟨hs, happened, fun i c hc => ?_, ?_, ?_, ?_, fun log hl => ?_⟩
  · rw [contexts, List.getElem?_map, Option.map_eq_some_iff] at hc
    obtain ⟨e, he, rfl⟩ := hc
    obtain ⟨r, s₂, s₃, hr, hp⟩ := reached.history he
    refine ⟨r, e.context.sent, hr, by simp [sends, he], ?_⟩
    rw [contexts, ← List.map_take]
    exact hp.dispatched
  · rw [sends, contexts, List.length_map, List.length_map]
  · rw [sends]
  · rw [sent, contexts, flatMap_sent]
  · rw [stopped.world, reached.logged_sends hl sends]

/-- A request whose dependency failed is not sent, and the next one is. -/
theorem requests_send_eligible_past_failure :
    ∃ run s', runFrom (requests ((Script.ofStatuses [404, 200]).host fun _ => true) .default []
        none "a.http" [.get "a" none, .get "b" (some "a"), .get "c" none]) .fresh =
        (.ok (some run), s') ∧
      (run.failed = 1 ∧ run.skipped = 1 ∧ run.succeeded = 1) ∧
      s'.world.received = (run.store.contexts.filter (·.outcome.isSome)).map (·.request) ∧
      ∀ i c, run.store.contexts[i]? = some c → ∃ r sent,
        [Request.get "a" none, .get "b" (some "a"), .get "c" none][i]? = some r ∧
          Dispatched ⟨run.store.contexts.take i⟩ r c sent := by
  obtain ⟨run, s', h, counts⟩ := exists_of_endsWith
    (show endsWith (runFrom (requests ((Script.ofStatuses [404, 200]).host fun _ => true) .default []
        none "a.http" [.get "a" none, .get "b" (some "a"), .get "c" none]) .fresh)
      (fun run => run.failed = 1 ∧ run.skipped = 1 ∧ run.succeeded = 1) = true by decide +kernel)
  obtain ⟨hs, -, each, -, -, sends, received⟩ := requests_send_eligible h
  refine ⟨run, s', h, of_decide_eq_true counts, ?_, fun i c hc => ?_⟩
  · rw [received _ (Script.host_logs ..), sends]
    rfl
  · obtain ⟨r, sent, hr, -, dispatched⟩ := each i c hc
    exact ⟨r, sent, hr, dispatched⟩

end DotHttp.Run
