import DotHttp.Proofs.Resolution.Texts
import DotHttp.Proofs.Run.Eligible

/-!
Requests that are resolved alike wherever and whenever it is done: none of their texts calls a function
that takes chance or time, also where a reference has put the call in place.
-/

namespace DotHttp

/-- With its references replaced, a text comes through the functions without chance and time. -/
def Store.steadyText (store : Store) (text : String) : Bool :=
  match Resolution.filled store text with
  | .ok s => Function.steady Function.all s.toList
  | .error _ => true

/-- All texts of a request do so. -/
def Request.Steady (store : Store) (r : Request) : Prop :=
  ∀ t ∈ r.texts, store.steadyText t = true

instance (store : Store) (r : Request) : Decidable (r.Steady store) :=
  List.decidableBAll (store.steadyText · = true) r.texts

namespace Resolution

variable {α β : Type}

/-- Steps with the same result from all sources, which they take no draw from. -/
def Fixed (x : Sources → Step α) : Prop :=
  ∃ result ns, ∀ src p, runFrom (x src) p = (result, { p with notes := p.notes ++ ns })

theorem Fixed.pure (a : α) : Fixed fun _ => pure a :=
  ⟨.ok a, [], fun _ p => by simp⟩

theorem Fixed.bind {x : Sources → Step α} {f : Sources → α → Step β} (hx : Fixed x)
    (hf : ∀ a, Fixed fun src => f src a) : Fixed fun src => x src >>= f src := by
  obtain ⟨result, ns, first⟩ := hx
  cases result with
  | error e =>
    refine ⟨.error e, ns, ?_⟩
    intro src p
    exact runFrom_bind_error (first src p) (f src)
  | ok a =>
    obtain ⟨result, ns', later⟩ := hf a
    refine ⟨result, ns ++ ns', ?_⟩
    intro src p
    rw [runFrom_bind_ok (first src p), later, List.append_assoc]

theorem Fixed.shape {x : Sources → Step α} (hx : Fixed x) (f : α → β) :
    Fixed fun src => (do let a ← x src; Pure.pure (f a)) :=
  hx.bind fun a => .pure (f a)

variable {store : Store} (vars : List Variable)

theorem text_fixed {t : String} (h : store.steadyText t = true) :
    Fixed fun src => text src store vars t := by
  obtain ⟨ns, fills⟩ := runFrom_references store t
  cases hf : filled store t with
  | error e =>
    rw [hf] at fills
    refine ⟨.error e, ns, ?_⟩
    intro src p
    change runFrom (text src store vars t) p = _
    rw [text, runFrom_bind_error (fills p)]
  | ok s =>
    rw [hf] at fills
    rw [Store.steadyText, hf] at h
    have values := Function.substitute_of_steady h
    cases hs : Function.substitute .still 0 s with
    | error e =>
      refine ⟨.error .tooManyDigits, ns, ?_⟩
      intro src p
      change runFrom (text src store vars t) p = _
      rw [text, runFrom_bind_ok (fills p), functions, runFrom_bind, runFrom_bind_ok (runFrom_get _),
        values, hs]
      rfl
    | ok q =>
      refine ⟨.ok (Variable.expand vars q.1), ns, ?_⟩
      intro src p
      change runFrom (text src store vars t) p = _
      rw [text, runFrom_bind_ok (fills p), functions, runFrom_bind, runFrom_bind_ok (runFrom_get _),
        values, hs]
      rfl

theorem headers_fixed {hs : List Header}
    (h : ∀ t ∈ hs.flatMap fun h => [h.name, h.value], store.steadyText t = true) :
    Fixed fun src => headers src store vars hs := by
  induction hs with
  | nil => exact .pure []
  | cons first rest ih =>
    rw [List.flatMap_cons, List.forall_mem_append] at h
    obtain ⟨here, later⟩ := h
    have name := text_fixed vars (here first.name (by simp))
    have value := text_fixed vars (here first.value (by simp))
    have whole : Fixed fun src => header src store vars first :=
      name.bind fun name => value.shape (Header.mk name)
    exact whole.bind fun first => (ih later).shape (first :: ·)

theorem body_fixed {b : Option String} (h : ∀ t ∈ b.toList, store.steadyText t = true) :
    Fixed fun src => body src store vars b := by
  cases b with
  | none => exact .pure none
  | some t => exact (text_fixed vars (h t (by simp))).shape some

theorem assertions_fixed {as : List Assertion}
    (h : ∀ t ∈ as.map (·.expected), store.steadyText t = true) :
    Fixed fun src => assertions src store vars as := by
  induction as with
  | nil => exact .pure []
  | cons first rest ih =>
    rw [List.map_cons, List.forall_mem_cons] at h
    obtain ⟨here, later⟩ := h
    exact (text_fixed vars here).bind fun expected =>
      (ih later).shape ({ first with expected } :: ·)

theorem request_fixed {r : Request} (h : r.Steady store) :
    Fixed fun src => request src store vars r := by
  have parts : store.steadyText r.url = true ∧
      (∀ t ∈ r.headers.flatMap fun h => [h.name, h.value], store.steadyText t = true) ∧
      (∀ t ∈ r.body.toList, store.steadyText t = true) ∧
      ∀ t ∈ r.assertions.map (·.expected), store.steadyText t = true := by
    simpa only [Request.Steady, Request.texts, List.cons_append, List.forall_mem_cons,
      List.forall_mem_append, and_assoc] using h
  obtain ⟨url, headers, body, assertions⟩ := parts
  exact (text_fixed vars url).bind fun url => (headers_fixed vars headers).bind fun headers =>
    (body_fixed vars body).bind fun body => (assertions_fixed vars assertions).shape
      fun assertions => { r with url, headers, body, assertions }

end Resolution

/-- What is planned for such a request is a matter of the store alone. -/
theorem plan_of_steady {store : Store} {r : Request} (vars : List Variable)
    (h : refusal? store r = none → r.Steady store) :
    ∃ ns, ∀ src next, plan src store vars r next = ((plan .still store vars r 0).1, next, ns) := by
  cases hr : refusal? store r with
  | some reason =>
    refine ⟨conditionNotes store r, ?_⟩
    intro src next
    simp only [plan, hr]
  | none =>
    obtain ⟨result, ns, resolved⟩ := Resolution.request_fixed vars (h hr)
    refine ⟨conditionNotes store r ++ ns, ?_⟩
    intro src next
    simp only [plan, hr, resolved, List.nil_append]

end DotHttp
