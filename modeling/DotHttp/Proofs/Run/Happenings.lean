import DotHttp.Run

/-!
What a trace of happenings shows: the events that were reported and the requests that were sent, as a
whole and between one event and the next. All other happenings are quiet and change none of these.
-/

namespace DotHttp.Happening

/-- Whether a happening neither sends a request nor reports an event. -/
def isQuiet : Happening → Bool
  | .send .. | .event _ => false
  | _ => true

def event? : Happening → Option Event
  | .event e => some e
  | _ => none

def sent? : Happening → Option Request
  | .send r _ => some r
  | _ => none

def events (hs : List Happening) : List Event :=
  hs.filterMap event?

def sends (hs : List Happening) : List Request :=
  hs.filterMap sent?

/-- Counts a happening in: what was sent before each event, and what was sent since the last. -/
def collect : List (List Request) × List Request → Happening → List (List Request) × List Request
  | (past, recent), .send r _ => (past, recent ++ [r])
  | (past, recent), .event _ => (past ++ [recent], [])
  | p, _ => p

/-- For each event the requests that were sent since the event before it, and then those that were
sent after the last event. -/
def sendsByEvent (hs : List Happening) : List (List Request) × List Request :=
  hs.foldl collect ([], [])

def Quiet (hs : List Happening) : Prop :=
  ∀ h ∈ hs, h.isQuiet = true

theorem Quiet.append {hs hs' : List Happening} (h : Quiet hs) (h' : Quiet hs') :
    Quiet (hs ++ hs') := by
  intro x hx
  rcases List.mem_append.1 hx with hx | hx
  · exact h x hx
  · exact h' x hx

theorem quiet_map {α : Type} {f : α → Happening} (h : ∀ a, (f a).isQuiet = true) (as : List α) :
    Quiet (as.map f) := by
  intro x hx
  obtain ⟨a, -, rfl⟩ := List.mem_map.1 hx
  exact h a

theorem quiet_remarks (rs : List Remark) : Quiet (rs.map Remark.happening) :=
  quiet_map (fun r => by cases r <;> rfl) rs

theorem quiet_notes (ns : List Note) : Quiet (ns.map .note) :=
  quiet_map (fun _ => rfl) ns

theorem event?_of_isQuiet {h : Happening} (hq : h.isQuiet = true) : h.event? = none := by
  cases h <;> first | rfl | cases hq

theorem sent?_of_isQuiet {h : Happening} (hq : h.isQuiet = true) : h.sent? = none := by
  cases h <;> first | rfl | cases hq

theorem collect_of_isQuiet {h : Happening} (hq : h.isQuiet = true)
    (p : List (List Request) × List Request) : collect p h = p := by
  cases h <;> first | rfl | cases hq

@[simp] theorem events_append (hs hs' : List Happening) :
    events (hs ++ hs') = events hs ++ events hs' := List.filterMap_append

@[simp] theorem sends_append (hs hs' : List Happening) :
    sends (hs ++ hs') = sends hs ++ sends hs' := List.filterMap_append

theorem sendsByEvent_append (hs hs' : List Happening) :
    sendsByEvent (hs ++ hs') = hs'.foldl collect (sendsByEvent hs) := List.foldl_append

theorem Quiet.events {hs : List Happening} (h : Quiet hs) : events hs = [] :=
  List.filterMap_eq_nil_iff.2 fun x hx => event?_of_isQuiet (h x hx)

theorem Quiet.sends {hs : List Happening} (h : Quiet hs) : sends hs = [] :=
  List.filterMap_eq_nil_iff.2 fun x hx => sent?_of_isQuiet (h x hx)

theorem Quiet.foldl_collect {hs : List Happening} (h : Quiet hs)
    (p : List (List Request) × List Request) : hs.foldl collect p = p := by
  induction hs with
  | nil => rfl
  | cons x rest ih =>
    rw [List.foldl_cons, collect_of_isQuiet (h x List.mem_cons_self)]
    exact ih fun y hy => h y (List.mem_cons_of_mem x hy)

/-- No request that was sent is missing between the events, and none is there twice. -/
theorem sends_eq_flatten (hs : List Happening) :
    sends hs = (sendsByEvent hs).1.flatten ++ (sendsByEvent hs).2 := by
  -- Stated for any start, since the fold does not begin anew after an event.
  have fold : ∀ p : List (List Request) × List Request,
      (hs.foldl collect p).1.flatten ++ (hs.foldl collect p).2 = p.1.flatten ++ p.2 ++ sends hs := by
    induction hs with
    | nil => simp [sends]
    | cons h rest ih =>
      intro p
      rw [List.foldl_cons, ih]
      cases h <;> simp [collect, sends, List.filterMap_cons, sent?]
  exact (fold ([], [])).symm

end DotHttp.Happening
