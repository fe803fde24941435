import DotHttp.Proofs.Assertion
import DotHttp.Proofs.Run.Scripted

/-!
The verdict on a request that was sent and expects something of the answer. Without an answer it fails
and nothing is checked; with one it succeeds exactly if the answer is a success and all that is
expected holds of it.
-/

namespace DotHttp

theorem Assertion.checkAll_assertion (as : List Assertion) (o : Outcome) :
    (checkAll as o).map (·.assertion) = as := by
  rw [checkAll, List.map_map]
  exact (List.map_congr_left fun a _ => (check_tells a o).assertion).trans (List.map_id as)

theorem Assertion.checkAll_tells {as : List Assertion} {o : Outcome} {x : AssertionResult}
    (h : x ∈ checkAll as o) : Tells x.assertion (x.assertion.Holds o) x := by
  obtain ⟨a, -, rfl⟩ := List.mem_map.1 h
  have told := check_tells a o
  rwa [told.assertion]

namespace Run

variable {σ : Type}

/-- The event of a request to which there was no answer. -/
structure Unanswered (fault : TransportFault) (e : Event) : Prop where
  status : e.status = .failed
  reason : e.reason = some fault.message
  outcome : ∃ o, e.outcome = some o ∧ o.status = 0 ∧ o.success = false ∧
    o.message = some fault.message ∧ o.duration = fault.duration ∧ o.assertions = []

/-- The event of a request whose assertions were checked against an answer, with their results. -/
structure Judged (as : List Assertion) (answer : Outcome) (results : List AssertionResult)
    (e : Event) : Prop where
  assertions : results.map (·.assertion) = as
  passed : ∀ x ∈ results, (x.passed = true ↔ x.assertion.Holds answer)
  message : ∀ x ∈ results, (x.message = none ↔ x.passed = true)
  outcome : ∃ success, e.outcome = some { answer with success, assertions := results } ∧
    e.status = if success then .succeeded else .failed
  succeeded : e.status = .succeeded ↔
    answer.success = true ∧ ∀ x ∈ results, x.passed = true

theorem unanswered (index total : Nat) (q : Request) (fault : TransportFault) :
    Unanswered fault (.answered index total q (verdict q (.error fault))) :=
  ⟨rfl, rfl, _, rfl, rfl, rfl, rfl, rfl, rfl⟩

theorem judged (index total : Nat) {q : Request} (expects : q.assertions ≠ []) (answer : Outcome) :
    Judged q.assertions answer (Assertion.checkAll q.assertions answer)
      (.answered index total q (verdict q (.ok answer))) := by
  have found : verdict q (.ok answer) = { answer with
      success := answer.success && (Assertion.checkAll q.assertions answer).all (·.passed)
      assertions := Assertion.checkAll q.assertions answer } := by
    rw [verdict, checked, if_neg (by simpa using expects)]
  have status : ∀ success : Bool,
      (if success then Status.succeeded else .failed) = .succeeded ↔ success = true := by decide
  rw [found]
  exact
    { assertions := Assertion.checkAll_assertion _ _
      passed := fun x hx => (Assertion.checkAll_tells hx).passed
      message := fun x hx => (Assertion.checkAll_tells hx).message
      outcome := ⟨_, rfl, rfl⟩
      succeeded := (status _).trans (by rw [Bool.and_eq_true, List.all_eq_true]) }

/-- A resolved request that expects something of the answer gets its event from what the transport
comes to, and from nothing else. -/
theorem perform_judged (host : Host σ) (config : RunConfig) (run : FileRun) (index total : Nat)
    {r : Request} (expects : r.assertions ≠ []) (s : Session σ) :
    ∃ e run' s', runFrom (perform host config run index total r) s = (.ok (e, run'), s') ∧
      match (host.send (withTimeouts config r) config.insecure s.world).1.outcome with
      | .error fault => Unanswered fault e
      | .ok answer => ∃ results, Judged r.assertions answer results e := by
  refine ⟨_, _, _, runFrom_perform host config run index total r s, ?_⟩
  cases (host.send (withTimeouts config r) config.insecure s.world).1.outcome with
  | error fault => exact unanswered index total _ fault
  | ok answer => exact ⟨_, judged index total (q := withTimeouts config r) expects answer⟩

/-- A request with an assertion of each kind: the status is written with a sign and zeros, and one of
the header's two spellings has the value. -/
def askingRequest : Request :=
  { Request.get "a" none with
    assertions := [⟨.status, " +0_201 "⟩, ⟨.body, "ok"⟩, ⟨.headers, "X-Kind : b:c"⟩] }

/-- The same for an answer that meets all three assertions, and for no answer. -/
theorem perform_judged_each :
    let answer : Outcome :=
      ⟨201, true, 3, none, none, some [("x-kind", "a"), ("X-KIND", "ab:cd")], some "it is ok", []⟩
    let replies : List (Except TransportFault Outcome) := [.ok answer, .error ⟨"no answer", 7⟩]
    let host : Host Nat := ⟨(Script.ofStatuses []).sources,
      fun _ _ n => (⟨replies.getD n (.ok answer), [], false⟩, n + 1), fun _ n => (true, n)⟩
    askingRequest.assertions ≠ [] ∧
      (∃ e run s, runFrom (perform host .default (.start "a.http") 0 2 askingRequest)
          ⟨0, 0, false, []⟩ = (.ok (e, run), s) ∧ e.status = .succeeded ∧
        ∃ results, Judged askingRequest.assertions answer results e) ∧
      ∃ e run s, runFrom (perform host .default (.start "a.http") 1 2 askingRequest)
          ⟨1, 0, false, []⟩ = (.ok (e, run), s) ∧ Unanswered ⟨"no answer", 7⟩ e := by
  intro answer replies host
  have expects : askingRequest.assertions ≠ [] := by decide
  obtain ⟨e, run, s, ran, results, judged⟩ := perform_judged host .default (.start "a.http") 0 2 expects
    ⟨0, 0, false, []⟩
  obtain ⟨e', run', s', ran', unanswered⟩ := perform_judged host .default (.start "a.http") 1 2 expects
    ⟨1, 0, false, []⟩
  have status : ((runFrom (perform host .default (.start "a.http") 0 2 askingRequest)
      ⟨0, 0, false, []⟩).1.toOption.map (·.1.status)) = some .succeeded := by decide +kernel
  rw [ran] at status
  exact ⟨expects, ⟨e, run, s, ran, Option.some.inj status, results, judged⟩, e', run', s', ran',
    unanswered⟩

end Run

end DotHttp
