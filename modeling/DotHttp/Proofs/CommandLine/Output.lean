import DotHttp.CommandLine
import DotHttp.Proofs.Run.Happenings
import DotHttp.Proofs.Steps

/-!
What the steps of a command write to its output. Notes and complaints write nothing there, whatever
they come to; what is shown of a run is the text of its events.
-/

namespace DotHttp.CommandLine

variable {σ α β : Type}

/-- Wherever these steps start and whatever they come to, they add nothing to the output, and nothing
happens. -/
def Quiet (c : Command σ α) : Prop :=
  ∀ p, (runFrom c p).2.output = p.output ∧ (runFrom c p).2.happenings = p.happenings

/-- Wherever these steps start, they come to their end, add these lines to the output, and nothing
happens. -/
def Says (c : Command σ Unit) (lines : List String) : Prop :=
  ∀ p, ∃ p', runFrom c p = (.ok (), p') ∧ p'.output = p.output ++ lines ∧
    p'.happenings = p.happenings

namespace Quiet

theorem pure (a : α) : Quiet (pure a : Command σ α) :=
  fun _ => ⟨rfl, rfl⟩

theorem throw (stop : Stop) : Quiet (throw stop : Command σ α) :=
  fun _ => ⟨rfl, rfl⟩

theorem get : Quiet (get : Command σ (Progress σ)) :=
  fun _ => ⟨rfl, rfl⟩

/-- The machine can change without a word. -/
theorem machine (f : Progress σ → Machine σ) :
    Quiet (modify fun p => { p with machine := f p } : Command σ Unit) :=
  fun _ => ⟨rfl, rfl⟩

theorem left {c : Command σ α} (h : Quiet c) {p p' : Progress σ} {result : Except Stop α}
    (ran : runFrom c p = (result, p')) :
    p'.output = p.output ∧ p'.happenings = p.happenings := by
  have kept := h p
  rwa [ran] at kept

theorem bind {c : Command σ α} {f : α → Command σ β} (h : Quiet c) (hf : ∀ a, Quiet (f a)) :
    Quiet (c >>= f) := by
  intro p
  have first := h p
  rw [runFrom_bind]
  generalize runFrom c p = ran at first ⊢
  obtain ⟨e | a, p₁⟩ := ran
  · exact first
  · exact ⟨(hf a p₁).1.trans first.1, (hf a p₁).2.trans first.2⟩

theorem liftFailure (result : Except Failure α) :
    Quiet (liftFailure result : Command σ α) := by
  cases result with
  | error f => exact .throw _
  | ok a => exact .pure a

end Quiet

namespace Says

theorem quiet {c : Command σ Unit} (h : Says c []) : Quiet c := by
  intro p
  obtain ⟨p', ran, output, happenings⟩ := h p
  rw [ran]
  exact ⟨output.trans (List.append_nil _), happenings⟩

theorem done : Says (Pure.pure () : Command σ Unit) [] :=
  fun p => ⟨p, rfl, (List.append_nil _).symm, rfl⟩

theorem andThen {c d : Command σ Unit} {lines lines' : List String} (h : Says c lines)
    (h' : Says d lines') : Says (c >>= fun _ => d) (lines ++ lines') := by
  intro p
  obtain ⟨p₁, ran, output, happenings⟩ := h p
  obtain ⟨p₂, ran', output', happenings'⟩ := h' p₁
  refine ⟨p₂, ?_, ?_, happenings'.trans happenings⟩
  · rw [runFrom_bind_ok ran, ran']
  · rw [output', output, List.append_assoc]

/-- Steps that look at where they stand say what they say from there. -/
theorem fromHere {f : Progress σ → Command σ Unit} {lines : List String}
    (h : ∀ p, Says (f p) lines) : Says (MonadState.get >>= f) lines :=
  fun p => h p p

theorem each {f : α → Command σ Unit} {text : α → List String} (h : ∀ a, Says (f a) (text a))
    (as : List α) : Says (as.forM f) (as.flatMap text) := by
  induction as with
  | nil => exact done
  | cons a rest ih =>
    rw [List.forM, List.flatMap_cons]
    exact (h a).andThen ih

end Says

theorem says_say (line : String) : Says (say line : Command σ Unit) [line] :=
  fun p => ⟨{ p with output := p.output ++ [line] }, rfl, rfl, rfl⟩

theorem runFrom_sayEach (f : α → String) (as : List α) (p : Progress σ) :
    runFrom (as.forM fun a => say (f a)) p =
      (.ok (), { p with output := p.output ++ as.map f }) := by
  induction as generalizing p with
  | nil => rw [List.map_nil, List.append_nil]; rfl
  | cons a rest ih =>
    have first : runFrom (say (f a)) p = (.ok (), { p with output := p.output ++ [f a] }) := rfl
    rw [List.forM, runFrom_bind_ok first, ih, List.map_cons, List.append_assoc]
    rfl

theorem says_lines (lines : List String) : Says (lines.forM say : Command σ Unit) lines := by
  intro p
  refine ⟨{ p with output := p.output ++ lines }, ?_, rfl, rfl⟩
  have said := runFrom_sayEach id lines p
  rwa [List.map_id] at said

theorem says_complain (line : String) : Says (complain line : Command σ Unit) [] :=
  fun p => ⟨{ p with errors := p.errors ++ [line] }, rfl, (List.append_nil _).symm, rfl⟩

theorem says_complaints {f : α → String} (as : List α) :
    Says (as.forM fun a => complain (f a) : Command σ Unit) [] := by
  have each : Says (as.forM fun a => complain (f a) : Command σ Unit) (as.flatMap fun _ => []) :=
    .each (fun a => says_complain (f a)) as
  rwa [List.flatMap_eq_nil_iff.2 fun _ _ => rfl] at each

theorem says_setTree (tree : FileTree) : Says (setTree tree : Command σ Unit) [] :=
  fun _ => ⟨_, rfl, (List.append_nil _).symm, rfl⟩

theorem says_logNotes (ns : List Note) : Says (logNotes ns : Command σ Unit) [] := by
  refine .fromHere fun p => ?_
  dsimp only
  split
  · split
    · exact says_setTree _
    · exact .done
  · exact .done

theorem says_noteEarly (ns : List Note) : Says (noteEarly ns : Command σ Unit) [] := by
  refine .fromHere fun p => ?_
  split
  · exact says_logNotes ns
  · exact says_complaints _

/-- The lines that are shown of what happens: of an event its text, of anything else nothing. -/
def shownOf (verbose pretty : Bool) : Happening → List String
  | .event e => [Report.event verbose pretty e]
  | _ => []

theorem says_present (logging : Logging) (pretty : Bool) (h : Happening) :
    Says (present logging pretty h : Command σ Unit) (shownOf logging.verbose pretty h) := by
  cases h with
  | note n =>
    rw [present]
    split
    · exact (says_complain _).andThen (says_logNotes [n])
    · exact Says.done.andThen (says_logNotes [n])
  | event e => exact says_say _
  | report text => exact says_complain text
  | pause _ => exact .done
  | send _ _ => exact .done

theorem shownOf_eq (verbose pretty : Bool) (hs : List Happening) :
    hs.flatMap (shownOf verbose pretty) =
      (Happening.events hs).map (Report.event verbose pretty) := by
  induction hs with
  | nil => rfl
  | cons h rest ih =>
    rw [List.flatMap_cons, ih]
    cases h <;> rfl

end DotHttp.CommandLine
