import DotHttp.Proofs.Placeholder.Template
import DotHttp.Proofs.Resolution.Resolves

/-!
What the resolution of a request comes to. It is refused over the first reference that has no value, in
the order of the texts. Otherwise each text comes to one text, and nothing else of the request changes.
-/

namespace DotHttp

/-- What stands between the braces of a placeholder. -/
def Segment.inner? : Segment → Option (List Char)
  | .char _ => none
  | .placeholder inner => some inner

/-- The placeholders of a text, from left to right. -/
def Placeholder.inners (text : String) : List (List Char) :=
  (segments text.toList).filterMap Segment.inner?

/-- The placeholders of a request, text by text in the order of resolution. -/
def Request.placeholders (r : Request) : List (List Char) :=
  r.texts.flatMap Placeholder.inners

namespace Reference

instance (store : Store) (inner : List Char) : Decidable (Missing store inner) :=
  decidable_of_iff (((parse? (String.ofList inner)).any fun ref => (ref.value? store).isNone) = true)
    (by simp [Missing, Option.any_eq_true])

/-- The first of some placeholders that reads as a reference without a value. -/
def firstMissing? (store : Store) (inners : List (List Char)) : Option (List Char) :=
  inners.find? fun inner => Missing store inner

theorem firstMissing?_append (store : Store) (inners more : List (List Char)) :
    firstMissing? store (inners ++ more) =
      (firstMissing? store inners).or (firstMissing? store more) :=
  List.find?_append

theorem firstMissing?_eq_none_iff {store : Store} {inners : List (List Char)} :
    firstMissing? store inners = none ↔ ∀ inner ∈ inners, ¬ Missing store inner := by
  simp [firstMissing?]

end Reference

namespace Function

variable {f : Function} {before : Option Char} {s : List Char}

theorem suffix_of_dropName? {name rest : List Char} (h : dropName? name s = some rest) :
    rest <:+ s := by
  induction name generalizing s with
  | nil =>
    cases h
    exact List.suffix_rfl
  | cons p ps ih =>
    cases s with
    | nil => cases h
    | cons c s =>
      rw [dropName?] at h
      split at h
      · exact (ih h).trans (List.suffix_cons c s)
      · cases h

theorem call?_of_no_parenthesis (h : '(' ∉ s) : f.call? before s = none := by
  rw [call?]
  split
  · rfl
  · rw [Option.bind_eq_none_iff]
    intro rest named
    have outside : '(' ∉ rest := fun hm => h ((suffix_of_dropName? named).mem hm)
    unfold argument?
    split
    · exact (outside List.mem_cons_self).elim
    · rfl

/-- A call has an opening parenthesis. -/
theorem calls_of_no_parenthesis (h : '(' ∉ s) : f.calls before s = [] := by
  induction s generalizing before with
  | nil => exact calls_nil f before
  | cons c s ih =>
    rw [calls_of_no_call (call?_of_no_parenthesis h)]
    exact ih (List.not_mem_of_not_mem_cons h)

end Function

namespace Resolution

open DotHttp.Placeholder DotHttp.Reference

variable (src : Sources) (store : Store) (vars : List Variable)

/-- A text is not filled in over its first reference without a value. -/
theorem filledParts_error_iff (parts : List Segment) (e : Fault) :
    filledParts store parts = .error e ↔
      ∃ inner, firstMissing? store (parts.filterMap Segment.inner?) = some inner ∧
        e = .unresolved (String.ofList (written inner)) := by
  induction parts with
  | nil => simp [filledParts, firstMissing?]
  | cons part parts ih =>
    have later (s : List Char) : (filledParts store parts).map (s ++ ·) = .error e ↔ _ :=
      map_eq_error_iff.trans ih
    cases part with
    | char c => exact later [c]
    | placeholder inner =>
      rcases Template.filledPart_placeholder store inner with ⟨value, stands, here⟩ | ⟨lacks, here⟩
      · have known := Template.not_missing_of_stands stands
        have split : filledParts store (.placeholder inner :: parts) =
            (filledParts store parts).map (value ++ ·) := by
          rw [filledParts, here]
          rfl
        rw [split, later]
        simp [firstMissing?, Segment.inner?, known]
      · have split : filledParts store (.placeholder inner :: parts) =
            .error (.unresolved (String.ofList (written inner))) := by
          rw [filledParts, here]
          rfl
        rw [split]
        simp [firstMissing?, Segment.inner?, lacks, eq_comm]

theorem filled_error_iff (t : String) (e : Fault) :
    filled store t = .error e ↔
      ∃ inner, firstMissing? store (inners t) = some inner ∧
        e = .unresolved (String.ofList (written inner)) :=
  map_eq_error_iff.trans (filledParts_error_iff store _ e)

/-- The three ways in which the resolution of texts, one after the other, can end: at a number of words
that is too long, at the first reference without a value, or behind the last text. -/
theorem drawnAfter_cases (ts : List String) (next : Nat) :
    drawnAfter src store ts next = .error .tooManyDigits ∨
    (∃ inner, firstMissing? store (ts.flatMap inners) = some inner ∧
      drawnAfter src store ts next = .error (.unresolved (String.ofList (written inner)))) ∨
    (firstMissing? store (ts.flatMap inners) = none ∧
      ∃ next', drawnAfter src store ts next = .ok next') := by
  induction ts generalizing next with
  | nil => exact .inr (.inr ⟨rfl, next, rfl⟩)
  | cons t ts ih =>
    rw [List.flatMap_cons, firstMissing?_append, drawnAfter]
    cases hf : filled store t with
    | error e =>
      obtain ⟨inner, first, rfl⟩ := (filled_error_iff store t e).1 hf
      rw [first]
      exact .inr (.inl ⟨inner, rfl, rfl⟩)
    | ok s =>
      have known : firstMissing? store (inners t) = none := by
        rw [Option.eq_none_iff_forall_ne_some]
        intro inner first
        have lacks := (filled_error_iff store t _).2 ⟨inner, first, rfl⟩
        rw [hf] at lacks
        cases lacks
      rw [known, Option.none_or]
      dsimp only
      cases Function.substitute src next s with
      | error e => exact .inl rfl
      | ok q => exact ih q.2

/-- What a text comes to: its references are replaced, then its calls, then its variables. -/
def Comes (t t' : String) : Prop :=
  ∃ next next' s s', filled store t = .ok s ∧ Function.substitute src next s = .ok (s', next') ∧
    t' = Variable.expand vars s'

/-- A request that another one comes to: its texts do so one by one, and all else is the same. -/
structure Resolved (r q : Request) : Prop where
  method : q.method = r.method
  name : q.name = r.name
  conditions : q.conditions = r.conditions
  dependsOn : q.dependsOn = r.dependsOn
  timeout : q.timeout = r.timeout
  connectionTimeout : q.connectionTimeout = r.connectionTimeout
  preDelay : q.preDelay = r.preDelay
  postDelay : q.postDelay = r.postDelay
  url : Comes src store vars r.url q.url
  headers : List.Forall₂
    (fun h h' => Comes src store vars h.name h'.name ∧ Comes src store vars h.value h'.value)
    r.headers q.headers
  body : Option.Rel (Comes src store vars) r.body q.body
  assertions : List.Forall₂
    (fun a a' => a'.kind = a.kind ∧ Comes src store vars a.expected a'.expected)
    r.assertions q.assertions

theorem text_gives (t : String) : Gives (text src store vars t) (Comes src store vars t) := by
  intro p t' p' h
  obtain ⟨ns, fills⟩ := runFrom_references store t
  obtain ⟨s, p₁, filling, h⟩ := runFrom_bind_eq_ok h
  rw [fills] at filling
  obtain ⟨s', p₂, calling, h⟩ := runFrom_bind_eq_ok h
  cases h
  rw [functions, runFrom_bind_ok (runFrom_get p₁)] at calling
  cases called : Function.substitute src p₁.next s with
  | error e =>
    rw [called] at calling
    cases calling
  | ok q =>
    rw [called] at calling
    cases calling
    exact ⟨p₁.next, q.2, s, q.1, congrArg Prod.fst filling, called, rfl⟩

theorem headers_come (hs : List Header) :
    Gives (headers src store vars hs) (List.Forall₂ (fun h h' =>
      Comes src store vars h.name h'.name ∧ Comes src store vars h.value h'.value) hs) := by
  induction hs with
  | nil => exact .pure .nil
  | cons h rest ih =>
    have first : Gives (header src store vars h) fun h' =>
        Comes src store vars h.name h'.name ∧ Comes src store vars h.value h'.value :=
      (text_gives src store vars h.name).bind fun name hn =>
        (text_gives src store vars h.value).bind fun value hv => .pure ⟨hn, hv⟩
    exact first.bind fun h' here => ih.bind fun rest' later => .pure (.cons here later)

theorem body_comes (b : Option String) :
    Gives (body src store vars b) (Option.Rel (Comes src store vars) b) := by
  cases b with
  | none => exact .pure .none
  | some t => exact (text_gives src store vars t).bind fun t' h => .pure (.some h)

theorem assertions_come (as : List Assertion) :
    Gives (assertions src store vars as) (List.Forall₂ (fun a a' =>
      a'.kind = a.kind ∧ Comes src store vars a.expected a'.expected) as) := by
  induction as with
  | nil => exact .pure .nil
  | cons a rest ih =>
    exact (text_gives src store vars a.expected).bind fun expected here =>
      ih.bind fun rest' later => .pure (.cons ⟨rfl, here⟩ later)

/-- A text without two opening braces in a row and without an opening parenthesis. -/
def Bare (t : String) : Prop :=
  ¬ ['{', '{'] <:+: t.toList ∧ '(' ∉ t.toList

variable {src store vars} {t t' : String}

theorem segments_of_bare (h : Bare t) : segments t.toList = t.toList.map .char := by
  have whole := segments_literal (t := []) h.1 fun _ => rfl
  rwa [List.append_nil, segments, List.append_nil] at whole

theorem filled_of_bare (h : Bare t) : filled store t = .ok t := by
  have parts := Template.filledParts_literal store t.toList []
  rw [List.append_nil] at parts
  rw [filled, segments_of_bare h, parts, filledParts, Except.map, Except.map, List.append_nil,
    String.ofList_toList]

theorem substitute_of_bare (h : Bare t) (next : Nat) :
    Function.substitute src next t = .ok (t, next) := by
  have passes : Function.replaceAllOf src Function.all next t.toList = .ok (t.toList, next) :=
    Function.replaceAllOf_of_no_calls (fun f _ => Function.calls_of_no_parenthesis h.2) src next
  rw [Function.substitute, passes]
  simp only [Except.map, String.ofList_toList]

theorem expand_of_bare (h : Bare t) : Variable.expand vars t = t := by
  apply Variable.expand_of_silent
  intro part among
  rw [segments_of_bare h, List.mem_map] at among
  obtain ⟨c, -, rfl⟩ := among
  trivial

/-- Such a text comes to nothing but itself. -/
theorem Comes.eq_of_bare (h : Comes src store vars t t') (bare : Bare t) : t' = t := by
  obtain ⟨next, next', s, s', fills, called, rfl⟩ := h
  rw [filled_of_bare bare] at fills
  cases fills
  rw [substitute_of_bare bare] at called
  cases called
  exact expand_of_bare bare

theorem drawnAfter_of_bare {ts : List String} (h : ∀ t ∈ ts, Bare t) (next : Nat) :
    drawnAfter src store ts next = .ok next := by
  induction ts with
  | nil => rfl
  | cons t ts ih =>
    obtain ⟨here, later⟩ := List.forall_mem_cons.1 h
    rw [drawnAfter, filled_of_bare here]
    dsimp only
    rw [substitute_of_bare here]
    exact ih later

theorem eq_of_forall₂ {α : Type} {R : α → α → Prop} {as bs : List α} (h : List.Forall₂ R as bs)
    (same : ∀ a ∈ as, ∀ b, R a b → b = a) : bs = as := by
  induction h with
  | nil => rfl
  | cons first rest ih =>
    obtain ⟨here, later⟩ := List.forall_mem_cons.1 same
    rw [here _ first, ih later]

/-- A request of such texts comes to nothing but itself. -/
theorem Resolved.eq_of_bare {r q : Request} (h : Resolved src store vars r q)
    (bare : ∀ t ∈ r.texts, Bare t) : q = r := by
  have url : q.url = r.url := h.url.eq_of_bare (bare _ (by simp [Request.texts]))
  have headers : q.headers = r.headers := by
    apply eq_of_forall₂ h.headers
    rintro x among y ⟨hn, hv⟩
    have texts : ∀ t ∈ [x.name, x.value], Bare t := by
      intro t ht
      apply bare
      simp only [Request.texts, List.cons_append, List.mem_cons, List.mem_append, List.mem_flatMap]
      exact .inr (.inl (.inl ⟨x, among, by simpa using ht⟩))
    exact congrArg₂ Header.mk (hn.eq_of_bare (texts _ (by simp))) (hv.eq_of_bare (texts _ (by simp)))
  have body : q.body = r.body := by
    have text : ∀ t ∈ r.body, Bare t := by
      intro t ht
      apply bare
      simp only [Request.texts, List.cons_append, List.mem_cons, List.mem_append, Option.mem_toList]
      exact .inr (.inl (.inr ht))
    have comes := h.body
    generalize r.body = b, q.body = b' at text comes ⊢
    cases comes with
    | none => rfl
    | some here => rw [here.eq_of_bare (text _ rfl)]
  have assertions : q.assertions = r.assertions := by
    apply eq_of_forall₂ h.assertions
    rintro x among y ⟨hk, he⟩
    have text : Bare x.expected := by
      apply bare
      simp only [Request.texts, List.mem_append, List.mem_map]
      exact .inr ⟨x, among, rfl⟩
    exact congrArg₂ Assertion.mk hk (he.eq_of_bare text)
  cases q
  cases r
  rw [Request.mk.injEq]
  exact ⟨h.method, url, h.name, headers, body, assertions, h.conditions, h.dependsOn, h.timeout,
    h.connectionTimeout, h.preDelay, h.postDelay⟩

variable (src store vars)

theorem request_comes (r : Request) :
    Gives (request src store vars r) (Resolved src store vars r) :=
  (text_gives src store vars r.url).bind fun _ hu =>
    (headers_come src store vars r.headers).bind fun _ hh =>
      (body_comes src store vars r.body).bind fun _ hb =>
        (assertions_come src store vars r.assertions).bind fun _ ha =>
          .pure ⟨rfl, rfl, rfl, rfl, rfl, rfl, rfl, rfl, hu, hh, hb, ha⟩

/-- The three ways in which the resolution of a request can end. -/
theorem request_cases (r : Request) (p : Progress) :
    (Overlong src store p.next r.texts ∧
      (runFrom (request src store vars r) p).1 = .error .tooManyDigits) ∨
    (¬ Overlong src store p.next r.texts ∧ ∃ inner, firstMissing? store r.placeholders = some inner ∧
      (runFrom (request src store vars r) p).1 =
        .error (.unresolved (String.ofList (written inner)))) ∨
    (¬ Overlong src store p.next r.texts ∧ firstMissing? store r.placeholders = none ∧
      ∃ q, (runFrom (request src store vars r) p).1 = .ok q) := by
  have long := request_tooManyDigits_iff src store vars r p
  by_cases overlong : Overlong src store p.next r.texts
  · exact .inl ⟨overlong, long.2 overlong⟩
  right
  have drawn := drawnAfter_cases src store r.texts p.next
  rw [request_follows src store vars r p] at drawn
  rcases drawn with stopped | ⟨inner, first, stopped⟩ | ⟨known, next', ends⟩
  · exact (overlong (long.1 (map_eq_error_iff.1 stopped))).elim
  · exact .inl ⟨overlong, inner, first, map_eq_error_iff.1 stopped⟩
  · obtain ⟨q, resolved, -⟩ := map_eq_ok_iff.1 ends
    exact .inr ⟨overlong, known, q, resolved⟩

/-- A request with a reference in its URL that has a value, and two in a header and in its body that have
none. -/
def lackingRequest : Request :=
  ⟨"POST", "https://b/\x7b\x7ba.response.body.*\x7d\x7d", none,
    [⟨"X-\x7b\x7bv\x7d\x7d", "lorem_ipsum(2) \x7b\x7b a.response.headers.h \x7d\x7d"⟩],
    some "\x7b\x7bc.request.body.*\x7d\x7d", [], [], none, none, none, none, none⟩

end Resolution

end DotHttp
