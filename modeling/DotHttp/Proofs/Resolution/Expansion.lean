import DotHttp.Proofs.Placeholder
import DotHttp.Proofs.Steps
import DotHttp.Resolution

/-!
What the variables of an environment do to a request. They come last, after references and calls of
functions, so they act on what those have put in place, and only through placeholders that carry
their names.
-/

namespace DotHttp

def Header.expand (vars : List Variable) (h : Header) : Header :=
  ⟨Variable.expand vars h.name, Variable.expand vars h.value⟩

def Assertion.expand (vars : List Variable) (a : Assertion) : Assertion :=
  { a with expected := Variable.expand vars a.expected }

namespace Request

/-- A request with the values of variables put into its texts. -/
def expand (vars : List Variable) (r : Request) : Request :=
  { r with
    url := Variable.expand vars r.url
    headers := r.headers.map (Header.expand vars)
    body := r.body.map (Variable.expand vars)
    assertions := r.assertions.map (Assertion.expand vars) }

/-- No placeholder in a text of a request carries the name of a variable. -/
structure Silent (vars : List Variable) (r : Request) : Prop where
  url : Variable.Silent vars r.url
  headers : ∀ h ∈ r.headers, Variable.Silent vars h.name ∧ Variable.Silent vars h.value
  body : ∀ b ∈ r.body, Variable.Silent vars b
  assertions : ∀ a ∈ r.assertions, Variable.Silent vars a.expected

instance (vars : List Variable) (r : Request) : Decidable (r.Silent vars) :=
  decidable_of_iff
    (Variable.Silent vars r.url ∧
      (∀ h ∈ r.headers, Variable.Silent vars h.name ∧ Variable.Silent vars h.value) ∧
      (∀ b ∈ r.body, Variable.Silent vars b) ∧
      ∀ a ∈ r.assertions, Variable.Silent vars a.expected)
    ⟨fun ⟨hu, hh, hb, ha⟩ => ⟨hu, hh, hb, ha⟩, fun h => ⟨h.url, h.headers, h.body, h.assertions⟩⟩

theorem expand_of_silent {vars : List Variable} {r : Request} (h : r.Silent vars) :
    r.expand vars = r := by
  have headers : r.headers.map (Header.expand vars) = r.headers := by
    rw [List.map_congr_left (g := id), List.map_id]
    intro x hx
    obtain ⟨name, value⟩ := h.headers x hx
    rw [Header.expand, Variable.expand_of_silent name, Variable.expand_of_silent value, id]
  have body : r.body.map (Variable.expand vars) = r.body := by
    cases hb : r.body with
    | none => rfl
    | some b => rw [Option.map_some, Variable.expand_of_silent (h.body b hb)]
  have assertions : r.assertions.map (Assertion.expand vars) = r.assertions := by
    rw [List.map_congr_left (g := id), List.map_id]
    intro x hx
    rw [Assertion.expand, Variable.expand_of_silent (h.assertions x hx), id]
  rw [expand, Variable.expand_of_silent h.url, headers, body, assertions]

end Request

namespace Resolution

variable (src : Sources) (store : Store) (vars : List Variable)

theorem text_expand (t : String) :
    text src store vars t = Variable.expand vars <$> text src store [] t := by
  simp [text]

theorem header_expand (h : Header) :
    header src store vars h = Header.expand vars <$> header src store [] h := by
  simp [header, text_expand src store vars, Header.expand]

theorem headers_expand (hs : List Header) :
    headers src store vars hs = List.map (Header.expand vars) <$> headers src store [] hs := by
  induction hs with
  | nil => simp [headers]
  | cons h rest ih => simp [headers, header_expand src store vars, ih]

theorem body_expand (b : Option String) :
    body src store vars b = Option.map (Variable.expand vars) <$> body src store [] b := by
  cases b <;> simp [body, text_expand src store vars]

theorem assertions_expand (as : List Assertion) :
    assertions src store vars as =
      List.map (Assertion.expand vars) <$> assertions src store [] as := by
  induction as with
  | nil => simp [assertions]
  | cons a rest ih => simp [assertions, text_expand src store vars, ih, Assertion.expand]

/-- Variables are put into a request that is resolved already as far as it is without them. -/
theorem request_expand (r : Request) :
    request src store vars r = Request.expand vars <$> request src store [] r := by
  simp [request, text_expand src store vars, headers_expand src store vars,
    body_expand src store vars, assertions_expand src store vars, Request.expand]

end Resolution

end DotHttp
