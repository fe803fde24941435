import DotHttp.Proofs.Resolution.Steady
import DotHttp.Proofs.Run.Completion
import DotHttp.Proofs.Run.Stages

/-!
Runs that nothing else decides than their file and the answers to its requests. What such a run comes to
can be told at each of its stages, whatever happens to what it shares with other runs.
-/

namespace DotHttp

variable {σ : Type}

/-- A transport whose answer depends on the request alone, and a host that never asks for cancellation. -/
structure Host.Constant (host : Host σ) (answer : Request → Bool → Except TransportFault Outcome) :
    Prop where
  send : ∀ r insecure w, (host.send r insecure w).1.outcome = answer r insecure
  patient : host.Patient

namespace Run

section

variable (answer : Request → Bool → Except TransportFault Outcome) (config : RunConfig)
  (vars : List Variable) (total : Nat)

def answeredBy (index : Nat) (resolved : Request) : Event :=
  let q := withTimeouts config resolved
  .answered index total q (verdict q (answer q config.insecure))

/-- What a run by itself comes to at one request. -/
def soloPass (run : FileRun) (index : Nat) (r : Request) : Except Failure FileRun :=
  match (plan .still run.store vars r 0).1 with
  | .skip reason => .ok (run.enter (.skipped index total r reason))
  | .send resolved => .ok (run.enter (answeredBy answer config total index resolved))
  | .fail => .error (.defect .tooManyDigits)

/-- What a run by itself comes to after the requests left. -/
def soloFrom (run : FileRun) (index : Nat) : List Request → Except Failure FileRun
  | [] => .ok run
  | r :: rest =>
    match soloPass answer config vars total run index r with
    | .ok run => soloFrom run (index + 1) rest
    | .error f => .error f

/-- Whether a run by itself comes to no request that is resolved by chance or time. -/
def steadyFrom (run : FileRun) (index : Nat) : List Request → Bool
  | [] => true
  | r :: rest =>
    decide (refusal? run.store r = none → r.Steady run.store) &&
      match soloPass answer config vars total run index r with
      | .ok run => steadyFrom run (index + 1) rest
      | .error _ => true

end

def Stage.outcome (tree : FileTree) (answer : Request → Bool → Except TransportFault Outcome)
    (config : RunConfig) (path : String) : Stage → Except Failure FileRun
  | .unread =>
    match (prepare tree config path).1 with
    | .ok (rs, vars) => soloFrom answer config vars rs.length (.start path) 0 rs
    | .error f => .error f
  | .between p => soloFrom answer config p.vars p.total p.run p.index p.rest
  | .facing p r => soloFrom answer config p.vars p.total p.run p.index (r :: p.rest)
  | .sending p resolved =>
    soloFrom answer config p.vars p.total
      (p.run.enter (answeredBy answer config p.total p.index resolved)) (p.index + 1) p.rest
  | .showing p e => soloFrom answer config p.vars p.total (p.run.enter e) (p.index + 1) p.rest
  | .ended result => result

/-- Whether a run comes, from a stage on, to no request that is resolved by chance or time. -/
def Stage.steady (tree : FileTree) (answer : Request → Bool → Except TransportFault Outcome)
    (config : RunConfig) (path : String) : Stage → Bool
  | .unread =>
    match (prepare tree config path).1 with
    | .ok (rs, vars) => steadyFrom answer config vars rs.length (.start path) 0 rs
    | .error _ => true
  | .between p => steadyFrom answer config p.vars p.total p.run p.index p.rest
  | .facing p r => steadyFrom answer config p.vars p.total p.run p.index (r :: p.rest)
  | .sending p resolved =>
    steadyFrom answer config p.vars p.total
      (p.run.enter (answeredBy answer config p.total p.index resolved)) (p.index + 1) p.rest
  | .showing p e =>
    steadyFrom answer config p.vars p.total (p.run.enter e) (p.index + 1) p.rest
  | .ended _ => true

variable {tree : FileTree} {host : Host σ} {config : RunConfig} {path : String} {stage : Stage}
  {answer : Request → Bool → Except TransportFault Outcome} {s : Session σ}

/-- A step changes nothing of what a run comes to. -/
theorem Stage.step_outcome (constant : host.Constant answer) (active : s.cancelled = false)
    (steady : stage.steady tree answer config path = true) :
    (stage.step tree host config path s).1.outcome tree answer config path =
        stage.outcome tree answer config path ∧
      (stage.step tree host config path s).1.steady tree answer config path = true ∧
      (stage.step tree host config path s).2.cancelled = false := by
  cases stage with
  | unread =>
    simp only [Stage.step, Stage.outcome, Stage.steady] at steady ⊢
    generalize prepare tree config path = prepared at steady ⊢
    obtain ⟨f | ⟨rs, vars⟩, ns⟩ := prepared
    · exact ⟨rfl, rfl, active⟩
    · exact ⟨rfl, steady, active⟩
  | between p =>
    obtain ⟨vars, total, run, index, rest⟩ := p
    cases rest with
    | nil => exact ⟨rfl, rfl, active⟩
    | cons r rest =>
      simp only [Stage.step, if_neg (Bool.eq_false_iff.1 active)]
      exact ⟨rfl, steady, active⟩
  | facing p r =>
    simp only [Stage.steady, steadyFrom, Bool.and_eq_true, decide_eq_true_eq] at steady
    obtain ⟨here, later⟩ := steady
    obtain ⟨ns, planned⟩ := plan_of_steady p.vars here
    simp only [Stage.step, Stage.outcome, soloFrom, soloPass] at later ⊢
    rw [planned host.sources s.next]
    generalize (plan .still p.run.store p.vars r 0).1 = decided at later ⊢
    cases decided with
    | skip reason => exact ⟨rfl, later, active⟩
    | send resolved => exact ⟨rfl, later, active⟩
    | fail => exact ⟨rfl, rfl, active⟩
  | sending p resolved =>
    let q := withTimeouts config resolved
    have event : Event.answered p.index p.total q
        (verdict q (host.send q config.insecure s.world).1.outcome) =
          answeredBy answer config p.total p.index resolved := by
      rw [constant.send]
      rfl
    have shows : (Stage.step tree host config path (.sending p resolved) s).1 =
        .showing p (answeredBy answer config p.total p.index resolved) := congrArg _ event
    rw [shows]
    refine ⟨rfl, steady, ?_⟩
    change (s.cancelled || (host.send q config.insecure s.world).1.cancels) = false
    rw [active, constant.patient.send]
    rfl
  | showing p e =>
    refine ⟨rfl, steady, ?_⟩
    change (s.cancelled || !(host.observe e s.world).1) = false
    rw [active, constant.patient.observe]
    rfl
  | ended result => exact ⟨rfl, rfl, active⟩

theorem Steps.outcome {stage' : Stage} {s' : Session σ} (constant : host.Constant answer)
    (active : s.cancelled = false) (steady : stage.steady tree answer config path = true)
    (h : Steps tree host config path stage s stage' s') :
    stage'.outcome tree answer config path = stage.outcome tree answer config path ∧
      s'.cancelled = false := by
  induction h with
  | done => exact ⟨rfl, active⟩
  | step first rest ih =>
    have kept := Stage.step_outcome constant active steady
    rw [first] at kept
    obtain ⟨same, steady, active⟩ := kept
    obtain ⟨later, active⟩ := ih active steady
    exact ⟨later.trans same, active⟩

theorem wholeFile_outcome (constant : host.Constant answer) (active : s.cancelled = false)
    (steady : Stage.unread.steady tree answer config path = true) :
    (runFrom (wholeFile tree host config path) s).1 =
        Stage.unread.outcome tree answer config path ∧
      (runFrom (wholeFile tree host config path) s).2.cancelled = false :=
  (steps_wholeFile tree host config path s).outcome constant active steady

theorem runFrom_pass_steady {vars : List Variable} {total index : Nat} {run : FileRun} {r : Request}
    (constant : host.Constant answer) (here : refusal? run.store r = none → r.Steady run.store) :
    (runFrom (pass host config vars total run index r) s).1 =
      soloPass answer config vars total run index r := by
  obtain ⟨ns, planned⟩ := plan_of_steady vars here
  rw [runFrom_pass, planned host.sources s.next, soloPass]
  generalize (plan .still run.store vars r 0).1 = decided
  cases decided with
  | skip reason => rfl
  | send resolved =>
    dsimp only
    rw [constant.send]
    rfl
  | fail => rfl

theorem steadyFrom_iff (config : RunConfig) (vars : List Variable) (total : Nat) (run : FileRun)
    (index : Nat) (rs : List Request) (constant : host.Constant answer)
    (active : s.cancelled = false) :
    steadyFrom answer config vars total run index rs = true ↔
      ∀ r run' s₁, ComesTo host config vars total run index rs s r run' s₁ →
        refusal? run'.store r = none → r.Steady run'.store := by
  induction rs generalizing run index s with
  | nil => simp [steadyFrom, ComesTo]
  | cons r rest ih =>
    rw [steadyFrom, Bool.and_eq_true, decide_eq_true_eq]
    constructor
    · rintro ⟨here, later⟩ r' run' s₁ comes
      rw [← runFrom_pass_steady (s := s) constant here] at later
      obtain ⟨rfl, rfl, rfl⟩ | ⟨run₁, s₂, hp, comes⟩ := (comesTo_cons_iff active).1 comes
      · exact here
      · rw [hp] at later
        have active₁ := (pass_cancelled constant.patient hp).trans active
        exact (ih _ _ active₁).1 later r' run' s₁ comes
    · intro all
      have here : refusal? run.store r = none → r.Steady run.store :=
        all r run s ((comesTo_cons_iff active).2 (.inl ⟨rfl, rfl, rfl⟩))
      refine ⟨here, ?_⟩
      rw [← runFrom_pass_steady (s := s) constant here]
      cases hp : runFrom (pass host config vars total run index r) s with
      | mk result s₂ =>
        cases result with
        | error f => rfl
        | ok run₁ =>
          have active₁ := (pass_cancelled constant.patient hp).trans active
          refine (ih _ _ active₁).2 ?_
          intro r' run' s₁ comes
          exact all r' run' s₁ ((comesTo_cons_iff active).2 (.inr ⟨run₁, s₂, hp, comes⟩))

/-- No text of a request that a run of the file by itself sends, once the references in it are
replaced, calls a function that takes chance or time, in any pass. -/
def SteadyFile (tree : FileTree) (host : Host σ) (config : RunConfig) (path : String)
    (s : Session σ) : Prop :=
  ∀ rs vars ns, prepare tree config path = (.ok (rs, vars), ns) →
    ∀ r run s₁, ComesTo host config vars rs.length (.start path) 0 rs (s.add (ns.map .note)) r run s₁ →
      refusal? run.store r = none → r.Steady run.store

theorem steadyFile_iff (constant : host.Constant answer) (active : s.cancelled = false) :
    SteadyFile tree host config path s ↔ Stage.unread.steady tree answer config path = true := by
  rw [SteadyFile, Stage.steady]
  generalize prepare tree config path = prepared
  obtain ⟨f | ⟨rs, vars⟩, ns⟩ := prepared
  · simp
  · have actual := steadyFrom_iff (s := s.add (ns.map .note)) config vars rs.length (.start path) 0
      rs constant active
    rw [actual]
    constructor
    · intro steady
      exact steady rs vars ns rfl
    · intro steady rs' vars' ns' same
      cases same
      exact steady

end Run

end DotHttp
