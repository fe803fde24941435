import DotHttp.Proofs.Run.Reached

/-!
Hosts whose state tells which requests the transport was given. Among them are the scripted ones: the
answer to a request depends on the requests received up to it and on nothing else, and what the
observer says of an event depends on the events shown up to it.
-/

namespace DotHttp

variable {σ : Type}

/-- A view of a host's state that lists every request the transport was given, in order. -/
structure Host.Logs (host : Host σ) (log : σ → List Request) : Prop where
  send : ∀ r insecure w, log (host.send r insecure w).2 = log w ++ [r]
  observe : ∀ e w, log (host.observe e w).2 = log w

structure Dialogue where
  received : List Request
  shown : List Event
  deriving DecidableEq

/-- Sources, and a transport that answers by the requests received so far. -/
structure Script where
  sources : Sources
  answer : Bool → List Request → Reply

/-- The host that follows a script and asks a callback whether to go on after the events so far. -/
def Script.host (script : Script) (callback : List Event → Bool) : Host Dialogue where
  sources := script.sources
  send r insecure d :=
    (script.answer insecure (d.received ++ [r]), { d with received := d.received ++ [r] })
  observe e d := (callback (d.shown ++ [e]), { d with shown := d.shown ++ [e] })

@[simp] theorem Script.host_sources (script : Script) (callback : List Event → Bool) :
    (script.host callback).sources = script.sources := rfl

theorem Script.host_logs (script : Script) (callback : List Event → Bool) :
    (script.host callback).Logs Dialogue.received :=
  ⟨fun _ _ _ => rfl, fun _ _ => rfl⟩

/-- Answers with each status in turn, and with faults after the last. -/
def Script.ofStatuses (statuses : List Int) : Script where
  sources := ⟨id, ⟨2024, 1, 2, 3, 4, 5⟩, ⟨2024, 6, 7, 8, 9, 10⟩⟩
  answer _ received :=
    { outcome :=
        match statuses[received.length - 1]? with
        | some n => .ok ⟨n, isSuccessStatus n, 0, none, none, none, none, []⟩
        | none => .error ⟨"no answer", 0⟩
      remarks := []
      cancels := false }

/-- Answers every request with the same body. -/
def Script.ofBody (body : String) : Script where
  sources := ⟨id, ⟨2024, 1, 2, 3, 4, 5⟩, ⟨2024, 6, 7, 8, 9, 10⟩⟩
  answer _ _ :=
    { outcome := .ok ⟨200, true, 0, none, none, none, some body, []⟩
      remarks := []
      cancels := false }

def Session.fresh : Session Dialogue :=
  ⟨⟨[], []⟩, 0, false, []⟩

def Request.get (name : String) (dependsOn : Option String) : Request :=
  ⟨"GET", "https://e.com", some name, [], none, [], [], dependsOn, none, none, none, none⟩

def endsWith {α : Type} (ending : Except Failure (Option α) × σ) (test : α → Bool) : Bool :=
  match ending.1 with
  | .ok (some a) => test a
  | _ => false

theorem exists_of_endsWith {α : Type} {ending : Except Failure (Option α) × σ} {test : α → Bool}
    (h : endsWith ending test = true) : ∃ a s, ending = (.ok (some a), s) ∧ test a = true := by
  obtain ⟨_ | _ | a, s⟩ := ending
  · cases h
  · cases h
  · exact ⟨a, s, rfl, h⟩

namespace Run

variable {host : Host σ} {insecure : Bool} {log : σ → List Request} {s s' s₀ : Session σ}

theorem Passed.logged {total index : Nat} {store : Store} {r : Request} {e : Event}
    (h : Passed host insecure total store index r s e s') (hl : host.Logs log) :
    log s'.world = log s.world ++ e.context.sent := by
  cases h with
  | skip refused hq => exact (hl.observe _ _).trans (List.append_nil _).symm
  | send eligible same ho hb ha => exact (hl.observe _ _).trans (hl.send _ _ _)

theorem Reached.logged {rs : List Request} {es : List Event} (h : Reached host insecure rs s₀ es s)
    (hl : host.Logs log) :
    log s.world = log s₀.world ++ es.flatMap fun e => e.context.sent := by
  induction h with
  | start => simp
  | pass h hr goOn hp ih => rw [hp.logged hl, ih]; simp

theorem Reached.logged_sends {rs : List Request} {es : List Event} {hs : List Happening}
    (h : Reached host insecure rs s₀ es s) (hl : host.Logs log)
    (sends : Happening.sendsByEvent hs = (es.map fun e => e.context.sent, [])) :
    log s.world = log s₀.world ++ Happening.sends hs := by
  rw [h.logged hl, Happening.sends_eq_flatten, sends, List.append_nil, List.flatMap_def]

theorem Stopped.world {filename : String} {rs : List Request} {es : List Event}
    {result : Except Failure (Option FileRun)} (h : Stopped filename rs es s result s') :
    s'.world = s.world := by
  cases h <;> rfl

end Run

theorem Run.Reached.shown {script : Script} {callback : List Event → Bool} {insecure : Bool}
    {rs : List Request} {es : List Event} {s₀ s : Session Dialogue}
    (h : Reached (script.host callback) insecure rs s₀ es s) :
    s.world.shown = s₀.world.shown ++ es := by
  induction h with
  | start => simp
  | pass h hr goOn hp ih =>
    rw [← List.append_assoc, ← ih]
    cases hp <;> rfl

end DotHttp
