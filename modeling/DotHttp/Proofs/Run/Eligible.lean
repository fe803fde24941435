import DotHttp.Proofs.Resolution.Resolves
import DotHttp.Proofs.Store.Latest
import DotHttp.Run

/-!
Eligible requests: those whose dependency, conditions and references all hold in a store. What a run
plans for a request before it sends anything is to send it exactly if it is eligible, unless a numeral
in it is too long.
-/

namespace DotHttp

/-- A request that its store allows to be sent. -/
structure Eligible (store : Store) (r : Request) : Prop where
  dependency : ∀ name, r.dependency? = some name →
    ∃ c o, store.Latest name c ∧ c.outcome = some o ∧ o.success = true
  conditions : ∀ x ∈ r.conditions,
    ∃ c o, store.Latest x.requestName c ∧ c.outcome = some o ∧ (x.compare o).2 ≠ x.negated
  references : r.Resolves store

theorem dependencyMet_iff {store : Store} {r : Request} :
    store.dependencyMet r.dependsOn = true ↔ ∀ name, r.dependency? = some name →
      ∃ c o, store.Latest name c ∧ c.outcome = some o ∧ o.success = true := by
  simp only [← Store.exists_outcome?_iff, Store.dependencyMet, Request.dependency?]
  cases r.dependsOn with
  | none => simp
  | some name =>
    by_cases hn : name = ""
    · simp [hn]
    · cases ho : store.outcome? name <;> simp [hn, ho]

theorem Condition.met_iff {store : Store} {x : Condition} :
    (x.evaluate store).met = true ↔
      ∃ c o, store.Latest x.requestName c ∧ c.outcome = some o ∧ (x.compare o).2 ≠ x.negated := by
  rw [← Store.exists_outcome?_iff, evaluate]
  cases store.outcome? x.requestName <;> simp

def refusal? (store : Store) (r : Request) : Option String :=
  if !store.dependencyMet r.dependsOn then
    some ("dependency '" ++ r.dependsOn.getD "" ++ "' not met")
  else if Condition.allMet r.conditions store then none
  else some "conditions not met"

theorem refusal?_eq_none_iff {store : Store} {r : Request} :
    refusal? store r = none ↔
      (∀ name, r.dependency? = some name →
        ∃ c o, store.Latest name c ∧ c.outcome = some o ∧ o.success = true) ∧
      ∀ x ∈ r.conditions,
        ∃ c o, store.Latest x.requestName c ∧ c.outcome = some o ∧ (x.compare o).2 ≠ x.negated := by
  simp only [← dependencyMet_iff, ← Condition.met_iff, refusal?, Condition.allMet]
  cases store.dependencyMet r.dependsOn <;> simp

/-- The notes on the conditions of a request, which are looked at once its dependency is met. -/
def conditionNotes (store : Store) (r : Request) : List Note :=
  if store.dependencyMet r.dependsOn then
    (Condition.evaluateAll r.conditions store).map .condition
  else []

inductive Plan where
  | skip (reason : String)
  | send (resolved : Request)
  /-- A numeral is too long, and the run ends. -/
  | fail

/-- The plan for a request, the number of the next draw, and the notes made meanwhile. -/
def plan (src : Sources) (store : Store) (vars : List Variable) (r : Request) (next : Nat) :
    Plan × Nat × List Note :=
  match refusal? store r with
  | some reason => (.skip reason, next, conditionNotes store r)
  | none =>
    let done := runFrom (Resolution.request src store vars r) ⟨next, []⟩
    let made :=
      match done.1 with
      | .ok resolved => .send resolved
      | .error (.unresolved placeholder) => .skip (Resolution.unresolvedMessage placeholder)
      | .error .tooManyDigits => .fail
    (made, done.2.next, conditionNotes store r ++ done.2.notes)

/-- A request is planned to be sent only if it is eligible, and to be skipped only if it is not. -/
theorem plan_eligible (src : Sources) (store : Store) (vars : List Variable) (r : Request)
    (next : Nat) :
    match (plan src store vars r next).1 with
    | .skip _ => ¬ Eligible store r
    | .send resolved => Eligible store r ∧ resolved.SamePlan r
    | .fail => True := by
  unfold plan
  cases hr : refusal? store r with
  | some reason =>
    intro h
    have := refusal?_eq_none_iff.2 ⟨h.dependency, h.conditions⟩
    simp [hr] at this
  | none =>
    obtain ⟨hd, hc⟩ := refusal?_eq_none_iff.1 hr
    -- Past the refusals only the references are left to decide.
    have decides := Resolution.request_decides src store vars r
      ⟨next, []⟩
    have gives := Resolution.request_gives src store vars r
      ⟨next, []⟩
    generalize runFrom (Resolution.request src store vars r) ⟨next, []⟩ = result at decides gives
    obtain ⟨(_ | _) | resolved, p⟩ := result
    · exact fun h => decides h.references
    · trivial
    · exact ⟨⟨hd, hc, decides⟩, gives resolved p rfl⟩

end DotHttp
