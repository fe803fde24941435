import DotHttp.Proofs.Run.Solo

/-!
Runs of files that take turns. They share a session, and each turn brings draws and clocks of its own.
-/

namespace DotHttp

variable {σ : Type}

theorem Host.Constant.with_sources {host : Host σ}
    {answer : Request → Bool → Except TransportFault Outcome} (constant : host.Constant answer)
    (sources : Sources) : { host with sources }.Constant answer :=
  ⟨constant.send, constant.patient.send, constant.patient.observe⟩

namespace Run

/-- The turn of the run at an index, with what chance and time hold for it. -/
structure Slot where
  index : Nat
  sources : Sources

def takeTurn (tree : FileTree) (host : Host σ) (config : RunConfig) (slot : Slot)
    (runs : List (String × Stage)) (s : Session σ) : List (String × Stage) × Session σ :=
  match runs[slot.index]? with
  | some (path, stage) =>
    let (stage, s) := stage.step tree { host with sources := slot.sources } config path s
    (runs.set slot.index (path, stage), s)
  | none => (runs, s)

def interleave (tree : FileTree) (host : Host σ) (config : RunConfig) :
    List Slot → List (String × Stage) → Session σ → List (String × Stage) × Session σ
  | [], runs, s => (runs, s)
  | slot :: rest, runs, s =>
    let (runs, s) := takeTurn tree host config slot runs s
    interleave tree host config rest runs s

def unread (paths : List String) : List (String × Stage) :=
  paths.map (·, .unread)

/-- What whoever takes the results in order has to say: the results, or the first failure. There is
nothing to say as long as a run before has not ended. -/
def answer? : List (String × Stage) → Option (Except Failure (List FileRun))
  | [] => some (.ok [])
  | (_, .ended (.ok run)) :: rest => (answer? rest).map (·.map (run :: ·))
  | (_, .ended (.error f)) :: _ => some (.error f)
  | _ :: _ => none

/-- What the runs come to by themselves. -/
def outcomes (tree : FileTree) (answer : Request → Bool → Except TransportFault Outcome)
    (config : RunConfig) (runs : List (String × Stage)) : List (Except Failure FileRun) :=
  runs.map fun run => run.2.outcome tree answer config run.1

/-- The number of turns that a run still needs, at most. -/
def Stage.left (tree : FileTree) (config : RunConfig) (path : String) : Stage → Nat
  | .unread =>
    match (prepare tree config path).1 with
    | .ok (rs, _) => 4 * rs.length + 2
    | .error _ => 1
  | .between p => 4 * p.rest.length + 1
  | .facing p _ => 4 * p.rest.length + 4
  | .sending p _ => 4 * p.rest.length + 3
  | .showing p _ => 4 * p.rest.length + 2
  | .ended _ => 0

variable {tree : FileTree} {host : Host σ} {config : RunConfig} {path : String} {stage : Stage}
  {answer : Request → Bool → Except TransportFault Outcome} {s : Session σ}
  {runs : List (String × Stage)} {i : Nat}

theorem takeTurn_of_some {slot : Slot} (h : runs[slot.index]? = some (path, stage)) :
    takeTurn tree host config slot runs s =
      let next := stage.step tree { host with sources := slot.sources } config path s
      (runs.set slot.index (path, next.1), next.2) := by
  rw [takeTurn, h]

theorem takeTurn_of_none {slot : Slot} (h : runs[slot.index]? = none) :
    takeTurn tree host config slot runs s = (runs, s) := by
  rw [takeTurn, h]

/-- A turn changes nothing of what the runs come to. -/
theorem takeTurn_outcomes (constant : host.Constant answer) (active : s.cancelled = false)
    (steady : ∀ run ∈ runs, run.2.steady tree answer config run.1 = true) (slot : Slot) :
    outcomes tree answer config (takeTurn tree host config slot runs s).1 =
        outcomes tree answer config runs ∧
      (∀ run ∈ (takeTurn tree host config slot runs s).1,
        run.2.steady tree answer config run.1 = true) ∧
      (takeTurn tree host config slot runs s).2.cancelled = false := by
  cases h : runs[slot.index]? with
  | none =>
    rw [takeTurn_of_none h]
    exact ⟨rfl, steady, active⟩
  | some run =>
    obtain ⟨path, stage⟩ := run
    have here : stage.steady tree answer config path = true := steady _ (List.mem_of_getElem? h)
    obtain ⟨same, steady', active'⟩ :=
      Stage.step_outcome (constant.with_sources slot.sources) active here
    obtain ⟨hi, at_index⟩ := List.getElem?_eq_some_iff.1 h
    -- The entry that is set comes to the same as the one that was there.
    have back : runs.set slot.index (path, stage) = runs := by
      rw [← at_index, List.set_getElem_self]
    rw [takeTurn_of_some h]
    refine ⟨?_, ?_, active'⟩
    · rw [outcomes, List.map_set, same]
      exact List.map_set.symm.trans (congrArg _ back)
    · intro run hr
      rcases List.mem_or_eq_of_mem_set hr with hr | rfl
      · exact steady run hr
      · exact steady'

theorem interleave_outcomes (constant : host.Constant answer) (active : s.cancelled = false)
    (steady : ∀ run ∈ runs, run.2.steady tree answer config run.1 = true) (schedule : List Slot) :
    outcomes tree answer config (interleave tree host config schedule runs s).1 =
      outcomes tree answer config runs := by
  induction schedule generalizing runs s with
  | nil => rfl
  | cons slot rest ih =>
    obtain ⟨same, steady, active⟩ := takeTurn_outcomes constant active steady slot
    exact (ih active steady).trans same

theorem answer?_eq_collect {result : Except Failure (List FileRun)} (h : answer? runs = some result) :
    result = collect (outcomes tree answer config runs) := by
  induction runs generalizing result with
  | nil => exact (Option.some.inj h).symm
  | cons run rest ih =>
    obtain ⟨path, stage⟩ := run
    cases stage with
    | ended ending =>
      cases ending with
      | error f => exact (Option.some.inj h).symm
      | ok run =>
        obtain ⟨later, hl, rfl⟩ := Option.map_eq_some_iff.1 h
        rw [ih hl]
        rfl
    | _ => cases h

theorem exists_answer (h : ∀ run ∈ runs, ∃ ending, run.2 = .ended ending) :
    ∃ result, answer? runs = some result := by
  induction runs with
  | nil => exact ⟨.ok [], rfl⟩
  | cons run rest ih =>
    obtain ⟨here, later⟩ := List.forall_mem_cons.1 h
    obtain ⟨path, stage⟩ := run
    obtain ⟨ending, rfl⟩ := here
    cases ending with
    | error f => exact ⟨.error f, rfl⟩
    | ok run =>
      obtain ⟨result, hr⟩ := ih later
      exact ⟨result.map (run :: ·), by rw [answer?, hr, Option.map_some]⟩

theorem Stage.left_step (tree : FileTree) (host : Host σ) (config : RunConfig) (path : String)
    (stage : Stage) (s : Session σ) :
    (stage.step tree host config path s).1.left tree config path ≤
      stage.left tree config path - 1 := by
  cases stage with
  | unread =>
    simp only [Stage.step, Stage.left]
    obtain ⟨f | ⟨rs, vars⟩, ns⟩ := prepare tree config path
    · exact Nat.zero_le _
    · exact Nat.le_refl _
  | between p =>
    obtain ⟨vars, total, run, index, rest⟩ := p
    cases rest with
    | nil => exact Nat.zero_le _
    | cons r rest =>
      simp only [Stage.step]
      split
      · exact Nat.zero_le _
      · simp only [Stage.left, List.length_cons]
        omega
  | facing p r =>
    simp only [Stage.step]
    obtain ⟨reason | resolved | _, next, ns⟩ := plan host.sources p.run.store p.vars r s.next
    · simp only [Stage.left]
      omega
    · simp only [Stage.left]
      omega
    · exact Nat.zero_le _
  | sending p resolved => simp only [Stage.step, Stage.left]; omega
  | showing p e => simp only [Stage.step, Stage.left, Place.enter]; omega
  | ended result => exact Nat.zero_le _

theorem Stage.ended_of_left (h : stage.left tree config path = 0) :
    ∃ ending, stage = .ended ending := by
  cases stage with
  | ended ending => exact ⟨ending, rfl⟩
  | unread =>
    rw [Stage.left] at h
    split at h <;> omega
  | _ => simp only [Stage.left] at h; omega

theorem takeTurn_at (slot : Slot) (h : runs[i]? = some (path, stage)) :
    ∃ stage', (takeTurn tree host config slot runs s).1[i]? = some (path, stage') ∧
      stage'.left tree config path ≤
        stage.left tree config path - if slot.index = i then 1 else 0 := by
  cases hs : runs[slot.index]? with
  | none =>
    have other : slot.index ≠ i := by
      rintro rfl
      rw [hs] at h
      cases h
    rw [takeTurn_of_none hs, if_neg other]
    exact ⟨stage, h, Nat.le_refl _⟩
  | some run =>
    obtain ⟨path', stage'⟩ := run
    rw [takeTurn_of_some hs]
    by_cases same : slot.index = i
    · subst same
      cases hs.symm.trans h
      refine ⟨_, List.getElem?_set_self (List.getElem?_eq_some_iff.1 hs).1, ?_⟩
      rw [if_pos rfl]
      exact Stage.left_step ..
    · refine ⟨stage, ?_, ?_⟩
      · exact (List.getElem?_set_ne same).trans h
      · rw [if_neg same]
        exact Nat.le_refl _

theorem interleave_at (host : Host σ) (schedule : List Slot) (s : Session σ)
    (h : runs[i]? = some (path, stage)) :
    ∃ stage', (interleave tree host config schedule runs s).1[i]? = some (path, stage') ∧
      stage'.left tree config path ≤
        stage.left tree config path - schedule.countP (·.index = i) := by
  induction schedule generalizing runs stage s with
  | nil => exact ⟨stage, h, Nat.le_refl _⟩
  | cons slot rest ih =>
    obtain ⟨stage₁, h₁, first⟩ := takeTurn_at slot h
    obtain ⟨stage₂, h₂, later⟩ := ih _ h₁
    refine ⟨stage₂, h₂, ?_⟩
    rw [List.countP_cons]
    simp only [decide_eq_true_eq]
    omega

theorem length_takeTurn (slot : Slot) :
    (takeTurn tree host config slot runs s).1.length = runs.length := by
  rw [takeTurn]
  split
  · exact List.length_set
  · rfl

theorem length_interleave (schedule : List Slot) :
    (interleave tree host config schedule runs s).1.length = runs.length := by
  induction schedule generalizing runs s with
  | nil => rfl
  | cons slot rest ih => exact ih.trans (length_takeTurn slot)

/-- Runs of which each has had the turns it needs have all ended. -/
theorem interleave_ends {paths : List String} {schedule : List Slot}
    (enough : ∀ i path, paths[i]? = some path →
      Stage.unread.left tree config path ≤ schedule.countP (·.index = i)) :
    ∀ run ∈ (interleave tree host config schedule (unread paths) s).1,
      ∃ ending, run.2 = .ended ending := by
  intro run hr
  obtain ⟨i, hi⟩ := List.getElem?_of_mem hr
  have within : i < paths.length := by
    have := (List.getElem?_eq_some_iff.1 hi).1
    rwa [length_interleave, unread, List.length_map] at this
  have start : (unread paths)[i]? = some (paths[i], .unread) := by
    rw [unread, List.getElem?_map, List.getElem?_eq_getElem within]
    rfl
  obtain ⟨stage, at_end, left⟩ := interleave_at host schedule s start
  have turns := enough i paths[i] (List.getElem?_eq_getElem within)
  rw [hi] at at_end
  cases at_end
  have nothing : stage.left tree config paths[i] = 0 := by omega
  exact Stage.ended_of_left nothing

end Run

end DotHttp
