import DotHttp.Proofs.Run.Scripted

/-!
The course of a run in time: when it pauses, sends and reports. Each request that is reached has its
own piece of it, and the pieces stand in the order of the requests with nothing between them.
-/

namespace DotHttp

namespace Happening

/-- Whether a happening is a pause, a request sent or an event, and no mere remark on them. -/
def isTimed : Happening → Bool
  | .pause _ | .send .. | .event _ => true
  | .note _ | .report _ => false

def timed (hs : List Happening) : List Happening :=
  hs.filter isTimed

@[simp] theorem timed_append (hs hs' : List Happening) :
    timed (hs ++ hs') = timed hs ++ timed hs' := List.filter_append ..

@[simp] theorem timed_cons_event (e : Event) (hs : List Happening) :
    timed (.event e :: hs) = .event e :: timed hs := rfl

@[simp] theorem timed_cons_send (r : Request) (insecure : Bool) (hs : List Happening) :
    timed (.send r insecure :: hs) = .send r insecure :: timed hs := rfl

@[simp] theorem timed_notes (ns : List Note) : timed (ns.map .note) = [] := by
  simp [timed, List.filter_map, Function.comp_def, isTimed]

@[simp] theorem timed_cons_note (n : Note) (hs : List Happening) :
    timed (.note n :: hs) = timed hs := rfl

@[simp] theorem timed_nil : timed [] = [] := rfl

@[simp] theorem timed_remarks (rs : List Remark) : timed (rs.map Remark.happening) = [] := by
  rw [timed, List.filter_eq_nil_iff, List.forall_mem_map]
  intro r _
  cases r <;> exact Bool.false_ne_true

theorem events_timed (hs : List Happening) : events (timed hs) = events hs := by
  have same : (fun h => if h.isTimed = true then event? h else none) = event? := by
    funext h
    cases h <;> rfl
  rw [events, timed, List.filterMap_filter, same, events]

end Happening

namespace Run

variable {σ : Type} {host : Host σ} {config : RunConfig} {vars : List Variable} {filename : String}
  {s s' : Session σ}

/-- The pauses around a request, what is sent between them, and the event: for a request that was
skipped there is only the event. Before all but the first request stands the pause of the options. -/
def piece (config : RunConfig) (index : Nat) (r : Request) (e : Event) : List Happening :=
  waits config index ++
    (if e.outcome.isSome then
      pauses r.preDelay ++ [.send e.request config.insecure] ++ pauses r.postDelay
    else []) ++
    [.event e]

/-- The pieces of some requests, the first of which has an index, as far as there are events. -/
def pieces (config : RunConfig) (index : Nat) (rs : List Request) (es : List Event) :
    List Happening :=
  ((rs.zip es).zipIdx index).flatMap fun ((r, e), i) => piece config i r e

@[simp] theorem timed_pauses (m : Option Nat) : Happening.timed (pauses m) = pauses m := by
  rcases m with _ | _ | n <;> rfl

@[simp] theorem timed_waits (config : RunConfig) (index : Nat) :
    Happening.timed (waits config index) = waits config index := by
  unfold waits
  split
  · rfl
  · exact timed_pauses _

theorem Turn.piece {total index : Nat} {store : Store} {r : Request} {e : Event}
    (h : Turn host config total store index r s e s') :
    ∃ hs, s'.happenings = s.happenings ++ hs ∧ Happening.timed hs = piece config index r e := by
  cases h with
  | @skip reason next ns n refused =>
    refine ⟨waits config index ++ ns.map .note ++ [.note n] ++ [.event (.skipped index total r reason)],
      by simp [Session.shown, Session.add, Session.drawn], ?_⟩
    simp [Run.piece, Event.skipped]
  | @send q o next ns n eligible same ho =>
    refine ⟨waits config index ++ ns.map .note ++ pauses r.preDelay ++
        (.send q config.insecure ::
          (host.send q config.insecure s.world).1.remarks.map Remark.happening) ++
        (pauses r.postDelay ++ [.note n]) ++ [.event (.answered index total q o)],
      by simp [Session.shown, Session.exchange, Session.add, Session.drawn], ?_⟩
    simp [Run.piece, Event.answered]

theorem events_piece (config : RunConfig) (index : Nat) (r : Request) (e : Event) :
    Happening.events (piece config index r e) = [e] := by
  have quiet : ∀ m, Happening.events (pauses m) = [] := fun m => (quiet_pauses m).events
  rw [piece, Happening.events_append, Happening.events_append, (quiet_waits config index).events]
  split
  · rw [Happening.events_append, Happening.events_append, quiet, quiet]
    rfl
  · rfl

theorem pieces_cons (config : RunConfig) (index : Nat) (r : Request) (rs : List Request) (e : Event)
    (es : List Event) : pieces config index (r :: rs) (e :: es) =
      piece config index r e ++ pieces config (index + 1) rs es := rfl

theorem pieces_nil (config : RunConfig) (index : Nat) (rs : List Request) :
    pieces config index rs [] = [] := by
  rw [pieces, List.zip_nil_right]
  rfl

/-- Notes alone are no piece of any request. -/
theorem timed_notes_eq_pieces (config : RunConfig) (index : Nat) (rs : List Request)
    (ns : List Note) : Happening.timed (ns.map .note) =
      pieces config index rs (Happening.events (ns.map .note)) := by
  rw [(Happening.quiet_notes ns).events, pieces_nil, Happening.timed_notes]

theorem requestsFrom_pieces {total : Nat} {events : Option Nat} {run : FileRun} {index : Nat}
    {rs : List Request} {result : Option FileRun}
    (h : runFrom (requestsFrom host config vars total events run index rs) s = (.ok result, s')) :
    ∃ hs, s'.happenings = s.happenings ++ hs ∧
      Happening.timed hs = pieces config index rs (Happening.events hs) := by
  induction rs generalizing events run index s with
  | nil =>
    rw [runFrom_requestsFrom_nil] at h
    cases h
    exact ⟨[], (List.append_nil _).symm, timed_notes_eq_pieces config index [] []⟩
  | cons r rest ih =>
    rw [runFrom_requestsFrom_cons] at h
    split at h
    · cases h
      exact ⟨[], (List.append_nil _).symm, timed_notes_eq_pieces config index _ []⟩
    · split at h
      · cases h
        exact ⟨_, rfl, timed_notes_eq_pieces config index _ [.cancelled index total run.filename]⟩
      · cases hp : runFrom (pass host config vars total run index r) s with
        | mk passed s₁ =>
          rw [hp] at h
          cases passed with
          | error f => cases h
          | ok run' =>
            obtain ⟨e, turn, rfl⟩ := turn_of_pass hp
            obtain ⟨first, happened, shape⟩ := turn.piece
            obtain ⟨later, happened', shape'⟩ := ih h
            have event : Happening.events first = [e] := by
              rw [← Happening.events_timed, shape, events_piece]
            refine ⟨first ++ later, ?_, ?_⟩
            · rw [happened', happened, List.append_assoc]
            · rw [Happening.timed_append, Happening.events_append, event, shape, shape']
              exact (pieces_cons config index r rest e _).symm

/-- Every piece ends with its event. -/
theorem getLast?_pieces (config : RunConfig) (index : Nat) (rs : List Request) (es : List Event) :
    ∀ h ∈ (pieces config index rs es).getLast?, ∃ e, h = .event e := by
  rcases List.eq_nil_or_concat ((rs.zip es).zipIdx index) with none | ⟨before, ⟨⟨r, e⟩, i⟩, split⟩
  · simp [pieces, none]
  · intro h hl
    rw [pieces, split, List.concat_eq_append, List.flatMap_append, List.flatMap_singleton] at hl
    dsimp only [piece] at hl
    rw [← List.append_assoc, List.getLast?_concat] at hl
    exact ⟨e, (Option.some.inj hl).symm⟩

/-- What follows the last event of a run is not timed. -/
theorem pause_notMem_of_timed {hs earlier later : List Happening} {e : Event}
    {rs : List Request} {es : List Event} (shape : Happening.timed hs = pieces config 0 rs es)
    (split : hs = earlier ++ .event e :: later) (last : Happening.events later = []) (n : Nat) :
    .pause n ∉ later := by
  intro paused
  have kept : Happening.pause n ∈ Happening.timed later := List.mem_filter.2 ⟨paused, rfl⟩
  obtain ⟨h, hl⟩ : ∃ h, (Happening.timed later).getLast? = some h :=
    Option.isSome_iff_exists.1 (by simpa using List.ne_nil_of_mem kept)
  obtain ⟨e', rfl⟩ : ∃ e', h = .event e' := by
    apply getLast?_pieces config 0 rs es
    rw [← shape, split, Happening.timed_append, Happening.timed_cons_event, List.getLast?_append,
      List.getLast?_cons, hl]
    rfl
  have reported : e' ∈ Happening.events (Happening.timed later) :=
    List.mem_filterMap.2 ⟨_, List.mem_of_getLast? hl, rfl⟩
  rw [Happening.events_timed, last] at reported
  cases reported

/-- The course of a run in time, as its events tell it. -/
structure Timed (config : RunConfig) (rs : List Request) (run : FileRun) (hs : List Happening) :
    Prop where
  contexts : run.store.contexts = (Happening.events hs).map Event.context
  course : Happening.timed hs = pieces config 0 rs (Happening.events hs)
  /-- Pauses around a request and the sending of it are found exactly where it is eligible. -/
  sent : ∀ i r e, rs[i]? = some r → (Happening.events hs)[i]? = some e →
    (e.outcome.isSome = true ↔ Eligible ⟨run.store.contexts.take i⟩ r)
  still : ∀ earlier e later, hs = earlier ++ .event e :: later → Happening.events later = [] →
    ∀ n, .pause n ∉ later

theorem Passed.isSome_outcome_iff {insecure : Bool} {total index : Nat} {store : Store} {r : Request}
    {e : Event} (h : Passed host insecure total store index r s e s') :
    e.outcome.isSome = true ↔ Eligible store r := by
  cases h with
  | skip refused hq => exact ⟨fun sent => absurd sent Bool.false_ne_true, fun h => (refused h).elim⟩
  | send eligible same ho hb ha => exact ⟨fun _ => eligible, fun _ => rfl⟩

/-- A run that ends pauses, sends and reports as its requests ask for, one after the other. -/
theorem requests_timed {events : Option Nat} {rs : List Request} {run : FileRun}
    (h : runFrom (requests host config vars events filename rs) s = (.ok (some run), s')) :
    ∃ hs, s'.happenings = s.happenings ++ hs ∧ Timed config rs run hs := by
  obtain ⟨es, s₁, hs, reached, stopped, happened, rfl, -⟩ := requests_stops h
  obtain ⟨hs', happened', course⟩ := requestsFrom_pieces h
  obtain rfl : hs' = hs := List.append_cancel_left (happened'.symm.trans happened)
  refine ⟨hs', happened, stopped.contexts, course, fun i r e hr he => ?_, ?_⟩
  · obtain ⟨r', s₂, s₃, hr', passed⟩ := reached.history he
    obtain rfl : r = r' := Option.some.inj (hr.symm.trans hr')
    rw [stopped.contexts, ← List.map_take]
    exact passed.isSome_outcome_iff
  · intro earlier e later split last n
    exact pause_notMem_of_timed course split last n

/-- With a pause between requests, one request that has pauses of its own, one that has them but is
skipped, and one that is not reached since the callback asks to stop. -/
theorem requests_timed_around_skip :
    let host := (Script.ofStatuses [200]).host fun es => es.length < 2
    let config := { RunConfig.default with delay := 5 }
    let rs : List Request :=
      [{ Request.get "a" none with preDelay := some 10, postDelay := some 20 },
        { Request.get "b" (some "x") with preDelay := some 7, postDelay := some 7 }, .get "c" none]
    ∃ run s' hs, runFrom (requests host config [] none "a.http" rs) .fresh = (.ok (some run), s') ∧
      (run.cancelled ∧ run.succeeded = 1 ∧ run.skipped = 1) ∧
      s'.happenings = Session.fresh.happenings ++ hs ∧ Timed config rs run hs := by
  intro host config rs
  obtain ⟨run, s', h, counts⟩ := exists_of_endsWith
    (show endsWith (runFrom (requests host config [] none "a.http" rs) .fresh)
      (fun run => run.cancelled ∧ run.succeeded = 1 ∧ run.skipped = 1) = true by decide +kernel)
  obtain ⟨hs, happened, timed⟩ := requests_timed h
  exact ⟨run, s', hs, h, of_decide_eq_true counts, happened, timed⟩

end Run

end DotHttp
