import DotHttp.Proofs.Steps
import DotHttp.Resolution

/-!
Requests whose references all have a value. Resolution lacks a reference only where this fails, and
what it gives keeps everything of the request that is no text to resolve.
-/

namespace DotHttp

/-- The name of the request that a request depends on; an empty name is none. -/
def Request.dependency? (r : Request) : Option String :=
  r.dependsOn.filter (· ≠ "")

/-- A part of a text that is no reference, or one with a value. -/
def Segment.Resolves (store : Store) : Segment → Prop
  | .char _ => True
  | .placeholder inner =>
    ∀ ref, Reference.parse? (String.ofList inner) = some ref → ∃ value, ref.value? store = some value

def Store.ResolvesText (store : Store) (text : String) : Prop :=
  ∀ part ∈ Placeholder.segments text.toList, part.Resolves store

structure Request.Resolves (store : Store) (r : Request) : Prop where
  url : store.ResolvesText r.url
  headers : ∀ h ∈ r.headers, store.ResolvesText h.name ∧ store.ResolvesText h.value
  body : ∀ b, r.body = some b → store.ResolvesText b
  assertions : ∀ a ∈ r.assertions, store.ResolvesText a.expected

/-- A request that agrees with another in all that neither resolution nor timeouts change. -/
structure Request.SamePlan (q r : Request) : Prop where
  method : q.method = r.method
  name : q.name = r.name
  dependsOn : q.dependsOn = r.dependsOn
  conditions : q.conditions = r.conditions
  preDelay : q.preDelay = r.preDelay
  postDelay : q.postDelay = r.postDelay
  headers : q.headers.length = r.headers.length

namespace Resolution

variable {α β : Type}

/-- Steps that find out whether something holds: they end well only if it does, and lack a reference
only if it does not. -/
def Decides (x : Step α) (P : Prop) : Prop :=
  ∀ p, match (runFrom x p).1 with
    | .ok _ => P
    | .error (.unresolved _) => ¬ P
    | .error .tooManyDigits => True

theorem Decides.pure (a : α) : Decides (pure a) True := fun _ => trivial

theorem Decides.congr {x : Step α} {P Q : Prop} (h : Decides x P) (hPQ : P ↔ Q) : Decides x Q :=
  propext hPQ ▸ h

theorem Decides.bind {x : Step α} {f : α → Step β} {P Q : Prop} (hx : Decides x P)
    (hf : ∀ a, Decides (f a) Q) : Decides (x >>= f) (P ∧ Q) := by
  intro p
  have hp := hx p
  rw [runFrom_bind]
  generalize runFrom x p = result at hp
  obtain ⟨(_ | _) | a, p'⟩ := result
  · exact fun h => hp h.1
  · trivial
  · have hq := hf a p'
    dsimp only at hp ⊢
    generalize runFrom (f a) p' = result at hq
    obtain ⟨(_ | _) | b, p''⟩ := result
    · exact fun h => hq h.2
    · trivial
    · exact ⟨hp, hq⟩

theorem Decides.shape {x : Step α} {P : Prop} (hx : Decides x P) (f : α → β) :
    Decides (do let a ← x; Pure.pure (f a)) P :=
  (hx.bind fun a => .pure (f a)).congr (and_iff_left trivial)

variable (src : Sources) (store : Store) (vars : List Variable)

theorem fillReference_decides (part : Segment) :
    Decides (fillReference store part) (part.Resolves store) := by
  intro p
  cases part with
  | char c => trivial
  | placeholder inner =>
    cases hr : Reference.parse? (String.ofList inner) with
    | none => simp [fillReference, hr, Segment.Resolves]
    | some ref =>
      cases hv : ref.value? store with
      | none => simp [fillReference, hr, hv, Segment.Resolves]
      | some value =>
        simp only [fillReference, hr, hv]
        rw [runFrom_bind_ok (runFrom_modify _ _), runFrom_pure]
        simp [Segment.Resolves, hr, hv]

theorem fillReferences_decides (parts : List Segment) :
    Decides (fillReferences store parts) (∀ part ∈ parts, part.Resolves store) := by
  induction parts with
  | nil => exact (Decides.pure _).congr (by simp)
  | cons part rest ih =>
    have step := (fillReference_decides store part).bind fun s => ih.shape (s ++ ·)
    exact step.congr List.forall_mem_cons.symm

theorem functions_decides (text : String) : Decides (functions src text) True := by
  intro p
  unfold functions
  rw [runFrom_bind_ok (runFrom_get p)]
  cases Function.substitute src p.next text with
  | error _ => trivial
  | ok v =>
    dsimp only
    rw [runFrom_bind_ok (runFrom_set _ _), runFrom_pure]
    trivial

theorem text_decides (t : String) :
    Decides (text src store vars t) (store.ResolvesText t) := by
  have hr : Decides (references store t) (store.ResolvesText t) :=
    (fillReferences_decides store _).shape String.ofList
  exact (hr.bind fun s => (functions_decides src s).shape (Variable.expand vars)).congr
    (and_iff_left trivial)

theorem headers_decides (hs : List Header) :
    Decides (headers src store vars hs)
      (∀ h ∈ hs, store.ResolvesText h.name ∧ store.ResolvesText h.value) := by
  induction hs with
  | nil => exact (Decides.pure _).congr (by simp)
  | cons h rest ih =>
    have hh : Decides (header src store vars h)
        (store.ResolvesText h.name ∧ store.ResolvesText h.value) :=
      (text_decides src store vars h.name).bind fun name =>
        (text_decides src store vars h.value).shape (Header.mk name)
    exact (hh.bind fun h' => ih.shape (h' :: ·)).congr (by simp only [List.forall_mem_cons])

theorem body_decides (b : Option String) :
    Decides (body src store vars b) (∀ t, b = some t → store.ResolvesText t) := by
  cases b with
  | none => exact (Decides.pure _).congr (by simp)
  | some t => exact ((text_decides src store vars t).shape some).congr (by simp)

theorem assertions_decides (as : List Assertion) :
    Decides (assertions src store vars as) (∀ a ∈ as, store.ResolvesText a.expected) := by
  induction as with
  | nil => exact (Decides.pure _).congr (by simp)
  | cons a rest ih =>
    have step := (text_decides src store vars a.expected).bind
      fun expected => ih.shape ({ a with expected } :: ·)
    exact step.congr (by simp only [List.forall_mem_cons])

theorem request_decides (r : Request) :
    Decides (request src store vars r) (r.Resolves store) := by
  -- One conjunct for each text, in the order in which they are resolved.
  have steps := (text_decides src store vars r.url).bind fun url =>
    (headers_decides src store vars r.headers).bind fun headers =>
      (body_decides src store vars r.body).bind fun body =>
        (assertions_decides src store vars r.assertions).shape
          fun assertions => { r with url, headers, body, assertions }
  exact steps.congr ⟨fun ⟨hu, hh, hb, ha⟩ => ⟨hu, hh, hb, ha⟩,
    fun h => ⟨h.url, h.headers, h.body, h.assertions⟩⟩

/-- What steps give has a property whenever they end well. -/
def Gives (x : Step α) (φ : α → Prop) : Prop :=
  ∀ p a p', runFrom x p = (.ok a, p') → φ a

theorem Gives.pure {φ : α → Prop} {a : α} (h : φ a) : Gives (Pure.pure a) φ := by
  intro p b p' hb
  simp only [runFrom_pure, Prod.mk.injEq, Except.ok.injEq] at hb
  exact hb.1 ▸ h

theorem Gives.bind {x : Step α} {f : α → Step β} {φ : α → Prop} {ψ : β → Prop} (hx : Gives x φ)
    (hf : ∀ a, φ a → Gives (f a) ψ) : Gives (x >>= f) ψ := by
  intro p b p'' hb
  obtain ⟨a, p', ha, hb⟩ := runFrom_bind_eq_ok hb
  exact hf a (hx p a p' ha) p' b p'' hb

theorem Gives.anything (x : Step α) : Gives x fun _ => True := fun _ _ _ _ => trivial

theorem headers_gives (hs : List Header) :
    Gives (headers src store vars hs) fun hs' => hs'.length = hs.length := by
  induction hs with
  | nil => exact .pure rfl
  | cons h rest ih =>
    exact (Gives.anything _).bind fun h' _ => ih.bind fun rest' hl => .pure (by simp [hl])

theorem request_gives (r : Request) : Gives (request src store vars r) (·.SamePlan r) :=
  (Gives.anything _).bind fun _ _ => (headers_gives src store vars _).bind fun _ hl =>
    (Gives.anything _).bind fun _ _ => (Gives.anything _).bind fun _ _ =>
      .pure ⟨rfl, rfl, rfl, rfl, rfl, rfl, hl⟩

end Resolution

end DotHttp
