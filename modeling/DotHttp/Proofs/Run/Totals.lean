import DotHttp.Proofs.Run.Isolation
import DotHttp.Report

/-!
What several files come to when each of them has a result: their counts add up to the events that were
reported, and whether all went well and to the end can be read off their contexts. It does not matter
whether they run one after the other up to a failure or each for itself.
-/

namespace DotHttp.Run

variable {σ : Type} {tree : FileTree} {host : Host σ} {config : RunConfig} {path : String}
  {paths : List String} {run : FileRun} {runs : List FileRun} {s s' : Session σ}

/-- Runs of files, each with a result and each from where the one before it stopped. -/
inductive Ran (tree : FileTree) (host : Host σ) (config : RunConfig) :
    List String → Session σ → List FileRun → Session σ → Prop
  | nil {s : Session σ} : Ran tree host config [] s [] s
  | cons {path : String} {paths : List String} {run : FileRun} {runs : List FileRun}
      {s s₁ s' : Session σ}
      (first : runFrom (wholeFile tree host config path) s = (.ok run, s₁))
      (rest : Ran tree host config paths s₁ runs s') :
      Ran tree host config (path :: paths) s (run :: runs) s'

/-- A run with as many contexts as its file has requests. -/
def Whole (tree : FileTree) (path : String) (run : FileRun) : Prop :=
  ∃ rs, (load tree [] path).1 = .ok rs ∧ run.store.size = rs.length

theorem ran_of_inSequence (h : runFrom (inSequence tree host config paths) s = (.ok runs, s')) :
    Ran tree host config paths s runs s' := by
  induction paths generalizing s runs with
  | nil =>
    cases h
    exact .nil
  | cons path rest ih =>
    obtain ⟨run, s₁, first, h⟩ := runFrom_bind_eq_ok h
    obtain ⟨later, s₂, others, h⟩ := runFrom_bind_eq_ok h
    cases h
    exact .cons first (ih others)

/-- Runs that have results together have one each. -/
theorem eq_of_collect {results : List (Except Failure FileRun)} (h : collect results = .ok runs) :
    results = runs.map .ok := by
  induction results generalizing runs with
  | nil =>
    cases h
    rfl
  | cons result rest ih =>
    cases result with
    | error f => cases h
    | ok run =>
      rw [collect] at h
      cases hc : collect rest with
      | error f =>
        rw [hc] at h
        cases h
      | ok later =>
        rw [hc] at h
        cases h
        rw [ih hc]
        rfl

theorem ran_of_independently
    (h : runFrom (independently tree host config paths) s = (.ok (runs.map .ok), s')) :
    Ran tree host config paths s runs s' := by
  induction paths generalizing s runs with
  | nil =>
    obtain ⟨none, rfl⟩ := Prod.mk.inj h
    cases List.map_eq_nil_iff.1 (Except.ok.inj none).symm
    exact .nil
  | cons path rest ih =>
    obtain ⟨first, s₁, attempted, h⟩ := runFrom_bind_eq_ok h
    obtain ⟨later, s₂, others, h⟩ := runFrom_bind_eq_ok h
    obtain ⟨each, rfl⟩ := Prod.mk.inj h
    obtain ⟨run, runs', rfl, rfl, rfl⟩ := List.map_eq_cons_iff.1 (Except.ok.inj each).symm
    rw [runFrom_attempt] at attempted
    obtain ⟨first_ran, rfl⟩ := Prod.mk.inj attempted
    have ran : runFrom (wholeFile tree host config path) s =
        (.ok run, (runFrom (wholeFile tree host config path) s).2) := by
      rw [← Except.ok.inj first_ran]
    exact .cons ran (ih others)

/-- Files that have results have run, one after the other or each for itself. -/
theorem ran_of_files {results : Results}
    (h : runFrom (files tree host config paths) s = (.ok results, s')) :
    ∃ runs, results = .ofFiles runs ∧ Ran tree host config paths s runs s' := by
  unfold files at h
  split at h
  · obtain ⟨each, s₁, ran, h⟩ := runFrom_bind_eq_ok h
    cases hc : collect each with
    | error f =>
      rw [hc] at h
      cases h
    | ok runs =>
      rw [hc] at h
      cases h
      rw [eq_of_collect hc] at ran
      exact ⟨runs, rfl, ran_of_independently ran⟩
  · obtain ⟨runs, s₁, ran, h⟩ := runFrom_bind_eq_ok h
    cases h
    exact ⟨runs, rfl, ran_of_inSequence ran⟩

theorem Books.length_le {rs : List Request} {es : List Event} (h : Books rs run es) :
    es.length ≤ rs.length := by
  by_contra beyond
  have last : rs.length < es.length := by omega
  obtain ⟨r, c, hr, -⟩ := h.recorded rs.length es[rs.length] (List.getElem?_eq_getElem last)
  exact absurd (List.getElem?_eq_some_iff.1 hr).1 (Nat.lt_irrefl _)

/-- A run of a file with a result has kept its books. -/
theorem wholeFile_books (h : runFrom (wholeFile tree host config path) s = (.ok run, s')) :
    ∃ rs hs, (load tree [] path).1 = .ok rs ∧ s'.happenings = s.happenings ++ hs ∧
      Books rs run (Happening.events hs) := by
  cases hp : prepare tree config path with
  | mk prepared ns =>
    cases prepared with
    | error f =>
      rw [wholeFile_of_failure hp] at h
      cases h
    | ok read =>
      obtain ⟨rs, vars⟩ := read
      obtain ⟨es, s₁, hs, reached, stopped, happened, rfl, -⟩ := wholeFile_stops host hp s
      rw [h] at stopped happened
      refine ⟨rs, hs, load_of_prepare hp, happened, ?_⟩
      rw [stopped.run_eq]
      exact reached.books path

theorem whole_iff (h : runFrom (wholeFile tree host config path) s = (.ok run, s')) :
    Whole tree path run ↔ run.cancelled = false := by
  obtain ⟨rs, hs, loaded, -, books⟩ := wholeFile_books h
  have bound := books.length_le
  rw [← Bool.not_eq_true, books.cancelled, ← books.contexts]
  rw [← books.contexts] at bound
  constructor
  · rintro ⟨rs', loaded', whole⟩
    cases loaded.symm.trans loaded'
    rw [Store.size] at whole
    omega
  · intro reached
    refine ⟨rs, loaded, ?_⟩
    rw [Store.size]
    omega

namespace Ran

theorem whole_iff (h : Ran tree host config paths s runs s') :
    List.Forall₂ (Whole tree) paths runs ↔ ∀ run ∈ runs, run.cancelled = false := by
  induction h with
  | nil => simp
  | cons first _ ih => rw [List.forall₂_cons, List.forall_mem_cons, ih, Run.whole_iff first]

theorem success_iff (h : Ran tree host config paths s runs s') :
    (Results.ofFiles runs).success = true ↔
      ∀ run ∈ runs, ∀ c ∈ run.store.contexts, ∀ o, c.outcome = some o → o.success = true := by
  induction h with
  | nil => simp [Results.ofFiles]
  | cons first _ ih =>
    rw [List.forall_mem_cons, ← ih, ← failed_eq_zero_iff first]
    simp [Results.ofFiles]

theorem happenings (h : Ran tree host config paths s runs s') :
    ∃ hs, s'.happenings = s.happenings ++ hs ∧
      Report.sum FileRun.total runs = (Happening.events hs).length := by
  induction h with
  | nil => exact ⟨[], by simp, rfl⟩
  | cons first _ ih =>
    obtain ⟨rs, hs, -, happened, books⟩ := wholeFile_books first
    obtain ⟨hs', happened', rest⟩ := ih
    refine ⟨hs ++ hs', ?_, ?_⟩
    · rw [happened', happened, List.append_assoc]
    · rw [Happening.events_append, List.length_append, ← rest, ← books.total]
      rfl

end Ran

end DotHttp.Run

namespace DotHttp.Report

theorem sum_total (runs : List FileRun) :
    sum (·.succeeded) runs + sum (·.failed) runs + sum (·.skipped) runs =
      sum FileRun.total runs := by
  induction runs with
  | nil => rfl
  | cons run rest ih =>
    simp only [sum, List.map_cons, List.foldr_cons, FileRun.total] at ih ⊢
    omega

theorem sum_failed_eq_zero_iff (runs : List FileRun) :
    sum (·.failed) runs = 0 ↔ (Results.ofFiles runs).success = true := by
  rw [sum, ← List.sum_eq_foldr, List.sum_eq_zero_iff_forall_eq_nat]
  simp [Results.ofFiles]

/-- The last line of a summary begins with a verdict that agrees with the number of failures. -/
theorem overall_eq (runs : List FileRun) : ∃ verdict, (verdict = "PASSED" ∨ verdict = "FAILED") ∧
    (verdict = "PASSED" ↔ sum (·.failed) runs = 0) ∧
    overall (.ofFiles runs) = s!"{verdict}: {runs.length} file(s), " ++
      s!"{sum (·.succeeded) runs} passed, " ++
      s!"{sum (·.failed) runs} failed, " ++
      s!"{sum (·.skipped) runs} skipped" := by
  refine ⟨if (Results.ofFiles runs).success then "PASSED" else "FAILED", ?_, ?_, ?_⟩
  · split
    · exact .inl rfl
    · exact .inr rfl
  · rw [sum_failed_eq_zero_iff]
    cases (Results.ofFiles runs).success <;> decide
  · rw [overall]
    simp [String.append_assoc, Results.ofFiles]

end DotHttp.Report
