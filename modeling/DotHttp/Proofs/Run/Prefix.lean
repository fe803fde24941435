import DotHttp.Proofs.Run.File
import DotHttp.Proofs.Run.Scripted

/-!
Runs share what they have in common. Two lists that begin with the same requests give the same events
up to there, and a callback that stops a run leaves what came before untouched.
-/

namespace DotHttp

/-- An event without the number of all requests. -/
def Event.untotalled (e : Event) : Event :=
  { e with total := 0 }

theorem Event.context_comp_untotalled : Event.context ∘ Event.untotalled = Event.context := rfl

/-- A callback that does not look at the number of all requests. -/
def BlindToTotal (callback : List Event → Bool) : Prop :=
  ∀ es, callback es = callback (es.map Event.untotalled)

namespace Run

variable {script : Script} {callback : List Event → Bool} {config : RunConfig}
  {vars : List Variable} {total : Nat} {events : Option Nat} {run : FileRun} {index : Nat}
  {s t : Session Dialogue}

theorem pass_shown {r : Request} {run' : FileRun} {s' : Session Dialogue}
    (h : runFrom (pass (script.host callback) config vars total run index r) s = (.ok run', s')) :
    ∃ e, s'.world.shown = s.world.shown ++ [e] := by
  obtain ⟨e, he, -⟩ := passed_of_pass h
  refine ⟨e, ?_⟩
  cases he <;> rfl

theorem requestsFrom_shown (script : Script) (callback : List Event → Bool) (config : RunConfig)
    (vars : List Variable) (total : Nat) (events : Option Nat) (run : FileRun) (index : Nat)
    (rs : List Request) (s : Session Dialogue) :
    ∃ es, (runFrom (requestsFrom (script.host callback) config vars total events run index rs)
      s).2.world.shown = s.world.shown ++ es := by
  induction rs generalizing events run index s with
  | nil => exact ⟨[], by simp [runFrom_requestsFrom_nil]⟩
  | cons r rest ih =>
    rw [runFrom_requestsFrom_cons]
    split
    · exact ⟨[], by simp⟩
    · split
      · exact ⟨[], by simp [Session.add]⟩
      · split
        · next hp =>
          obtain ⟨e, he⟩ := pass_shown hp
          obtain ⟨es, hes⟩ := ih _ _ _ _
          exact ⟨e :: es, by rw [hes, he, List.append_assoc]; rfl⟩
        · next hp =>
          obtain ⟨next, quiet, -, rfl⟩ := quiet_of_pass_error hp
          exact ⟨[], by simp [Session.add, Session.drawn]⟩

/-- Sessions that do not differ but in what was noted and in the totals of events. -/
structure Alike (s t : Session Dialogue) : Prop where
  next : s.next = t.next
  cancelled : s.cancelled = t.cancelled
  received : s.world.received = t.world.received
  shown : s.world.shown.map Event.untotalled = t.world.shown.map Event.untotalled

theorem Alike.refl (s : Session Dialogue) : Alike s s := ⟨rfl, rfl, rfl, rfl⟩

theorem Alike.moved (alike : Alike s t) (next : Nat) (hs hs' : List Happening) :
    Alike ((s.drawn next).add hs) ((t.drawn next).add hs') :=
  ⟨rfl, alike.cancelled, alike.received, alike.shown⟩

theorem Alike.exchanged (alike : Alike s t) (insecure : Bool) (r : Request)
    (hs hs' : List Happening) :
    Alike ((s.exchange (script.host callback) insecure r).add hs)
      ((t.exchange (script.host callback) insecure r).add hs') := by
  obtain ⟨hn, hc, hr, hsh⟩ := alike
  refine ⟨hn, ?_, ?_, hsh⟩
  · simp only [Session.add, Session.exchange, Script.host, hc, hr]
  · simp only [Session.add, Session.exchange, Script.host, hr]

theorem Alike.observed (alike : Alike s t) (blind : BlindToTotal callback) {e d : Event}
    (h : e.untotalled = d.untotalled) :
    Alike (s.shown (script.host callback) e) (t.shown (script.host callback) d) := by
  obtain ⟨hn, hc, hr, hsh⟩ := alike
  have events : (s.world.shown ++ [e]).map Event.untotalled =
      (t.world.shown ++ [d]).map Event.untotalled := by
    simp only [List.map_append, hsh, List.map_cons, h]
  refine ⟨hn, ?_, hr, events⟩
  simp only [Session.shown, Script.host, hc]
  rw [blind, events, ← blind]

/-- What happens at a request does not depend on how many requests there are. -/
theorem Alike.pass (alike : Alike s t) (blind : BlindToTotal callback) {m n : Nat} {r : Request}
    {p q : Except Failure FileRun × Session Dialogue}
    (hp : runFrom (pass (script.host callback) config vars m run index r) s = p)
    (hq : runFrom (pass (script.host callback) config vars n run index r) t = q) :
    p.1 = q.1 ∧ Alike p.2 q.2 := by
  rw [runFrom_pass, Script.host_sources, alike.next] at hp
  rw [runFrom_pass, Script.host_sources] at hq
  generalize plan script.sources run.store vars r t.next = planned at hp hq
  subst hp hq
  obtain ⟨reason | resolved | _, next, ns⟩ := planned
  · dsimp only
    exact ⟨rfl, (alike.moved next _ _).observed blind rfl⟩
  · have outcome : ((script.host callback).send (withTimeouts config resolved) config.insecure
        s.world).1 = ((script.host callback).send (withTimeouts config resolved) config.insecure
        t.world).1 := by
      simp only [Script.host, alike.received]
    dsimp only
    rw [outcome]
    exact ⟨rfl, ((alike.moved next _ _).exchanged _ _ _ _).observed blind rfl⟩
  · exact ⟨rfl, alike.moved next _ _⟩

theorem Alike.event {s' t' : Session Dialogue} (alike : Alike s t) (alike' : Alike s' t')
    {e d : Event} (he : s'.world.shown = s.world.shown ++ [e])
    (hd : t'.world.shown = t.world.shown ++ [d]) : e.untotalled = d.untotalled := by
  have shown := alike'.shown
  rw [he, hd, List.map_append, List.map_append, alike.shown] at shown
  simpa using shown

def ShownAlike (k : Nat) (s t s' t' : Session Dialogue) : Prop :=
  ∃ es ds, s'.world.shown = s.world.shown ++ es ∧ t'.world.shown = t.world.shown ++ ds ∧
    (es.take k).map Event.untotalled = (ds.take k).map Event.untotalled

theorem ShownAlike.nothing {k : Nat} {s' t' : Session Dialogue}
    (hs : s'.world.shown = s.world.shown) (ht : t'.world.shown = t.world.shown) :
    ShownAlike k s t s' t' :=
  ⟨[], [], by simp [hs], by simp [ht], rfl⟩

theorem ShownAlike.event {k : Nat} {s₁ t₁ s' t' : Session Dialogue} (h : ShownAlike k s₁ t₁ s' t')
    {e d : Event} (he : s₁.world.shown = s.world.shown ++ [e])
    (hd : t₁.world.shown = t.world.shown ++ [d]) (same : e.untotalled = d.untotalled) :
    ShownAlike (k + 1) s t s' t' := by
  obtain ⟨es, ds, hs, ht, heq⟩ := h
  refine ⟨e :: es, d :: ds, ?_, ?_, ?_⟩
  · rw [hs, he, List.append_assoc]; rfl
  · rw [ht, hd, List.append_assoc]; rfl
  · simp only [List.take_succ_cons, List.map_cons, same, heq]

/-- The events of a run up to a position come from the requests up to it. -/
theorem requestsFrom_shownAlike {k m n : Nat} {rs₁ rs₂ : List Request} (alike : Alike s t)
    (blind : BlindToTotal callback) (h : rs₁.take k = rs₂.take k) :
    ShownAlike k s t
      (runFrom (requestsFrom (script.host callback) config vars m events run index rs₁) s).2
      (runFrom (requestsFrom (script.host callback) config vars n events run index rs₂) t).2 := by
  -- On `k`: past a shared request the two runs stand at sessions that are alike again.
  induction k generalizing events run index rs₁ rs₂ s t with
  | zero =>
    obtain ⟨es, hes⟩ := requestsFrom_shown script callback config vars m events run index rs₁ s
    obtain ⟨ds, hds⟩ := requestsFrom_shown script callback config vars n events run index rs₂ t
    exact ⟨es, ds, hes, hds, by simp⟩
  | succ k ih =>
    cases rs₁ with
    | nil =>
      obtain rfl : rs₂ = [] := by simpa using h.symm
      exact .nothing rfl rfl
    | cons r rest₁ =>
      obtain ⟨rest₂, rfl⟩ : ∃ rest₂, rs₂ = r :: rest₂ := by
        cases rs₂ with
        | nil => simp at h
        | cons r' rest₂ => exact ⟨rest₂, by simp_all⟩
      rw [runFrom_requestsFrom_cons, runFrom_requestsFrom_cons, alike.cancelled]
      split
      · exact .nothing rfl rfl
      split
      · exact .nothing rfl rfl
      generalize hp : runFrom (pass (script.host callback) config vars m run index r) s = p
      generalize hq : runFrom (pass (script.host callback) config vars n run index r) t = q
      have passed := alike.pass blind hp hq
      obtain ⟨result, s'⟩ := p
      obtain ⟨result', t'⟩ := q
      obtain ⟨rfl, alike'⟩ : result = result' ∧ Alike s' t' := passed
      cases result with
      | error f =>
        obtain ⟨next, quiet, -, rfl⟩ := quiet_of_pass_error hp
        obtain ⟨next', quiet', -, rfl⟩ := quiet_of_pass_error hq
        exact .nothing rfl rfl
      | ok run' =>
        obtain ⟨e, he⟩ := pass_shown hp
        obtain ⟨d, hd⟩ := pass_shown hq
        have rest : rest₁.take k = rest₂.take k := by simpa using h
        exact (ih alike' rest).event he hd (alike.event alike' he hd)

end Run

end DotHttp
