import DotHttp.Proofs.Function
import DotHttp.Resolution

/-!
The texts of a request, in the order in which they are resolved. Each takes its draws after those of the
texts before it, and the first that cannot be resolved ends the resolution of the request.
-/

namespace DotHttp

/-- The texts that are resolved, in this order. -/
def Request.texts (r : Request) : List String :=
  r.url :: (r.headers.flatMap fun h => [h.name, h.value]) ++ r.body.toList ++
    r.assertions.map (·.expected)

namespace Resolution

variable {α β : Type} (src : Sources) (store : Store) (vars : List Variable)

/-- What stands for a part of a text once references are replaced. -/
def filledPart : Segment → Except Fault (List Char)
  | .char c => .ok [c]
  | .placeholder inner =>
    match Reference.parse? (String.ofList inner) with
    | none => .ok (Placeholder.written inner)
    | some r =>
      match r.value? store with
      | none => .error (.unresolved (String.ofList (Placeholder.written inner)))
      | some value => .ok value.toList

def filledParts : List Segment → Except Fault (List Char)
  | [] => .ok []
  | part :: rest => do
    let s ← filledPart store part
    let t ← filledParts rest
    .ok (s ++ t)

/-- A text with its references replaced. -/
def filled (text : String) : Except Fault String :=
  (filledParts store (Placeholder.segments text.toList)).map String.ofList

theorem filledParts_append (parts more : List Segment) :
    filledParts store (parts ++ more) = (do
      let s ← filledParts store parts
      let t ← filledParts store more
      pure (s ++ t)) := by
  induction parts with
  | nil => cases h : filledParts store more <;> simp [filledParts, h, bind, Except.bind, pure, Except.pure]
  | cons part parts ih =>
    rw [List.cons_append, filledParts, filledParts, ih]
    cases filledPart store part with
    | error e => rfl
    | ok s =>
      cases filledParts store parts with
      | error e => rfl
      | ok t =>
        cases filledParts store more with
        | error e => rfl
        | ok u => simp [bind, Except.bind, pure, Except.pure]

/-- What the parts of a text come to depends on nothing but what each comes to. -/
theorem filledParts_congr {store store' : Store} {parts : List Segment}
    (h : ∀ part ∈ parts, filledPart store part = filledPart store' part) :
    filledParts store parts = filledParts store' parts := by
  induction parts with
  | nil => rfl
  | cons part parts ih =>
    obtain ⟨here, later⟩ := List.forall_mem_cons.1 h
    rw [filledParts, filledParts, here, ih later]

theorem runFrom_fillReference (part : Segment) :
    ∃ ns, ∀ p, runFrom (fillReference store part) p =
      (filledPart store part, { p with notes := p.notes ++ ns }) := by
  cases part with
  | char c => exact ⟨[], fun p => by simp [fillReference, filledPart]⟩
  | placeholder inner =>
    cases hr : Reference.parse? (String.ofList inner) with
    | none => exact ⟨[], fun p => by simp [fillReference, filledPart, hr]⟩
    | some ref =>
      cases hv : ref.value? store with
      | none => exact ⟨[], fun p => by simp [fillReference, filledPart, hr, hv]⟩
      | some value =>
        refine ⟨[.resolved (String.ofList (Placeholder.written inner))], fun p => ?_⟩
        simp only [fillReference, filledPart, hr, hv]
        rw [runFrom_bind_ok (runFrom_modify _ _), runFrom_pure]

theorem runFrom_fillReferences (parts : List Segment) :
    ∃ ns, ∀ p, runFrom (fillReferences store parts) p =
      (filledParts store parts, { p with notes := p.notes ++ ns }) := by
  induction parts with
  | nil => exact ⟨[], fun p => by simp [fillReferences, filledParts]⟩
  | cons part rest ih =>
    obtain ⟨ns, first⟩ := runFrom_fillReference store part
    obtain ⟨ns', later⟩ := ih
    cases hf : filledPart store part with
    | error e =>
      refine ⟨ns, ?_⟩
      intro p
      rw [hf] at first
      rw [fillReferences, runFrom_bind_error (first p), filledParts, hf]
      rfl
    | ok s =>
      refine ⟨ns ++ ns', ?_⟩
      intro p
      rw [hf] at first
      rw [fillReferences, runFrom_bind_ok (first p), runFrom_bind, later, filledParts, hf]
      cases filledParts store rest <;> simp [bind, Except.bind]

/-- References are replaced without a draw, and alike wherever it is done. -/
theorem runFrom_references (text : String) :
    ∃ ns, ∀ p, runFrom (references store text) p =
      (filled store text, { p with notes := p.notes ++ ns }) := by
  obtain ⟨ns, fills⟩ := runFrom_fillReferences store (Placeholder.segments text.toList)
  refine ⟨ns, ?_⟩
  intro p
  rw [references, runFrom_bind, fills, filled]
  cases filledParts store (Placeholder.segments text.toList) <;> rfl

/-- A text without braces holds no reference. -/
theorem filled_of_no_brace {text : String} (h : '{' ∉ text.toList) :
    filled store text = .ok text := by
  have parts (s : List Char) (hs : '{' ∉ s) :
      filledParts store (Placeholder.segments s) = .ok s := by
    fun_induction Placeholder.segments s with
    | case1 => rfl
    | case2 c r inner rest opens ih =>
      unfold Placeholder.opening? at opens
      split at opens
      · next hc =>
        cases hc
        exact (hs List.mem_cons_self).elim
      · cases opens
    | case3 c r _ ih =>
      rw [filledParts, ih (List.not_mem_of_not_mem_cons hs)]
      rfl
  rw [filled, parts _ h]
  exact congrArg Except.ok (String.ofList_toList)

theorem filledParts_ne_tooManyDigits (parts : List Segment) :
    filledParts store parts ≠ .error .tooManyDigits := by
  induction parts with
  | nil => simp [filledParts]
  | cons part rest ih =>
    have first : filledPart store part ≠ .error .tooManyDigits := by
      unfold filledPart
      split
      · simp
      · split
        · simp
        · split <;> simp
    rw [filledParts]
    cases hf : filledPart store part with
    | error e =>
      rw [hf] at first
      exact fun h => first h
    | ok s =>
      cases hr : filledParts store rest with
      | error e =>
        rw [hr] at ih
        exact fun h => ih h
      | ok t => exact fun h => by cases h

theorem filled_ne_tooManyDigits (text : String) : filled store text ≠ .error .tooManyDigits := by
  have parts := filledParts_ne_tooManyDigits store (Placeholder.segments text.toList)
  unfold filled
  cases hp : filledParts store (Placeholder.segments text.toList) with
  | error e =>
    rintro ⟨⟩
    exact parts hp
  | ok s => exact fun h => by cases h

/-- The number of the next draw after some texts are resolved one after the other. -/
def drawnAfter : List String → Nat → Except Fault Nat
  | [], next => .ok next
  | t :: ts, next =>
    match filled store t with
    | .error e => .error e
    | .ok s =>
      match Function.substitute src next s with
      | .error _ => .error .tooManyDigits
      | .ok (_, next) => drawnAfter ts next

theorem drawnAfter_append (ts us : List String) (next : Nat) :
    drawnAfter src store (ts ++ us) next =
      match drawnAfter src store ts next with
      | .error e => .error e
      | .ok next => drawnAfter src store us next := by
  induction ts generalizing next with
  | nil => rfl
  | cons t ts ih =>
    simp only [List.cons_append, drawnAfter]
    cases filled store t with
    | error e => rfl
    | ok s =>
      dsimp only
      cases Function.substitute src next s with
      | error e => rfl
      | ok p => exact ih p.2

/-- Among some texts, resolved one after the other, resolution comes to one with a call that asks for a
number of words by too many digits. -/
inductive Overlong : Nat → List String → Prop
  | here {next : Nat} {t s : String} {ts : List String} (fills : filled store t = .ok s)
      (long : Function.Overlong src next s) : Overlong next (t :: ts)
  | later {next next' : Nat} {t s s' : String} {ts : List String} (fills : filled store t = .ok s)
      (done : Function.substitute src next s = .ok (s', next')) (rest : Overlong next' ts) :
      Overlong next (t :: ts)

theorem drawnAfter_tooManyDigits_iff (ts : List String) (next : Nat) :
    drawnAfter src store ts next = .error .tooManyDigits ↔ Overlong src store next ts := by
  constructor
  · intro h
    induction ts generalizing next with
    | nil => cases h
    | cons t ts ih =>
      simp only [drawnAfter] at h
      cases hf : filled store t with
      | error e =>
        rw [hf] at h
        cases h
        exact (filled_ne_tooManyDigits store t hf).elim
      | ok s =>
        rw [hf] at h
        cases hs : Function.substitute src next s with
        | error e => exact .here hf ((Function.substitute_error_iff src next s).1 ⟨e, hs⟩)
        | ok p =>
          simp only [hs] at h
          exact .later hf hs (ih p.2 h)
  · intro h
    induction h with
    | here fills long =>
      obtain ⟨e, he⟩ := (Function.substitute_error_iff src _ _).2 long
      simp only [drawnAfter, fills, he]
    | later fills done rest ih =>
      simp only [drawnAfter, fills, done]
      exact ih

/-- Steps that resolve some texts, one after the other. -/
def Follows (x : Step α) (ts : List String) : Prop :=
  ∀ p, drawnAfter src store ts p.next = (runFrom x p).1.map fun _ => (runFrom x p).2.next

variable {src store}

theorem Follows.pure (a : α) : Follows src store (pure a) [] := fun _ => rfl

theorem Follows.bind {x : Step α} {f : α → Step β} {ts us : List String} (hx : Follows src store x ts)
    (hf : ∀ a, Follows src store (f a) us) : Follows src store (x >>= f) (ts ++ us) := by
  intro p
  rw [drawnAfter_append, hx p, runFrom_bind]
  generalize runFrom x p = result
  obtain ⟨e | a, p'⟩ := result
  · rfl
  · exact hf a p'

theorem Follows.shape {x : Step α} {ts : List String} (hx : Follows src store x ts) (f : α → β) :
    Follows src store (do let a ← x; Pure.pure (f a)) ts := by
  have step := hx.bind fun a => Follows.pure (f a)
  rwa [List.append_nil] at step

variable (src store)

theorem text_follows (t : String) : Follows src store (text src store vars t) [t] := by
  intro p
  obtain ⟨ns, fills⟩ := runFrom_references store t
  rw [text, runFrom_bind, fills, drawnAfter]
  cases filled store t with
  | error e => rfl
  | ok s =>
    dsimp only
    rw [runFrom_bind, functions, runFrom_bind_ok (runFrom_get _)]
    dsimp only
    cases Function.substitute src p.next s with
    | error e => rfl
    | ok q => rfl

theorem headers_follows (hs : List Header) :
    Follows src store (headers src store vars hs) (hs.flatMap fun h => [h.name, h.value]) := by
  induction hs with
  | nil => exact .pure []
  | cons h rest ih =>
    have first : Follows src store (header src store vars h) [h.name, h.value] :=
      (text_follows src store vars h.name).bind fun name =>
        (text_follows src store vars h.value).shape (Header.mk name)
    exact first.bind fun h' => ih.shape (h' :: ·)

theorem body_follows (b : Option String) :
    Follows src store (body src store vars b) b.toList := by
  cases b with
  | none => exact .pure none
  | some t => exact (text_follows src store vars t).shape some

theorem assertions_follows (as : List Assertion) :
    Follows src store (assertions src store vars as) (as.map (·.expected)) := by
  induction as with
  | nil => exact .pure []
  | cons a rest ih =>
    exact (text_follows src store vars a.expected).bind fun expected =>
      ih.shape ({ a with expected } :: ·)

theorem request_follows (r : Request) :
    Follows src store (request src store vars r) r.texts := by
  have order : r.texts = [r.url] ++ ((r.headers.flatMap fun h => [h.name, h.value]) ++
      (r.body.toList ++ r.assertions.map (·.expected))) := by
    simp only [Request.texts, List.append_assoc, List.cons_append, List.nil_append]
  rw [order]
  exact (text_follows src store vars r.url).bind fun url =>
    (headers_follows src store vars r.headers).bind fun headers =>
      (body_follows src store vars r.body).bind fun body =>
        (assertions_follows src store vars r.assertions).shape
          fun assertions => { r with url, headers, body, assertions }

/-- Resolution is kept from its end by a number of words that is too long, where it is no reference
that it lacks. -/
theorem request_tooManyDigits_iff (r : Request) (p : Progress) :
    (runFrom (request src store vars r) p).1 = .error .tooManyDigits ↔
      Overlong src store p.next r.texts := by
  rw [← drawnAfter_tooManyDigits_iff, request_follows src store vars r p]
  cases (runFrom (request src store vars r) p).1 <;> simp [Except.map]

end Resolution

end DotHttp
