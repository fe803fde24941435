import DotHttp.Proofs.RequestFile.Canonical
import DotHttp.Proofs.Resolution.Texts
import DotHttp.Proofs.Run.Scripted

/-!
Runs that come to their end. Where nobody asks for cancellation, every request has its event, unless a
numeral that is too long ends the run.
-/

namespace DotHttp

variable {σ : Type}

/-- A host that never asks for cancellation. -/
structure Host.Patient (host : Host σ) : Prop where
  send : ∀ r insecure w, (host.send r insecure w).1.cancels = false
  observe : ∀ e w, (host.observe e w).1 = true

theorem plan_fail_iff {src : Sources} {store : Store} {vars : List Variable} {r : Request}
    {next : Nat} : (plan src store vars r next).1 = .fail ↔
      refusal? store r = none ∧ Resolution.Overlong src store next r.texts := by
  unfold plan
  cases refusal? store r with
  | some reason => simp
  | none =>
    have long := Resolution.request_tooManyDigits_iff src store vars r ⟨next, []⟩
    rw [and_iff_right rfl, ← long]
    dsimp only
    generalize (runFrom (Resolution.request src store vars r) ⟨next, []⟩).1 = result
    obtain (_ | _) | _ := result <;> simp

namespace Run

variable {host : Host σ} {config : RunConfig} {vars : List Variable} {total : Nat}
  {run run' : FileRun} {index : Nat} {r : Request} {rs xs ys : List Request} {s s' : Session σ}

/-- A run fails at a request just where the request has too long a numeral. -/
theorem pass_fails_iff : (∃ f s', runFrom (pass host config vars total run index r) s = (.error f, s')) ↔
      (plan host.sources run.store vars r s.next).1 = .fail := by
  rw [runFrom_pass]
  generalize plan host.sources run.store vars r s.next = planned
  obtain ⟨reason | resolved | _, next, ns⟩ := planned <;> simp

theorem pass_error {f : Failure}
    (h : runFrom (pass host config vars total run index r) s = (.error f, s')) :
    f = .defect .tooManyDigits := by
  rw [runFrom_pass] at h
  generalize plan host.sources run.store vars r s.next = planned at h
  obtain ⟨reason | resolved | _, next, ns⟩ := planned
  · simp at h
  · simp at h
  · simp only [Prod.mk.injEq, Except.error.injEq] at h
    exact h.1.symm

theorem pass_cancelled (patient : host.Patient)
    (h : runFrom (pass host config vars total run index r) s = (.ok run', s')) :
    s'.cancelled = s.cancelled := by
  obtain ⟨e, passed, -⟩ := passed_of_pass h
  cases passed with
  | skip => simp [Session.shown, Session.add, Session.drawn, patient.observe]
  | send =>
    simp [Session.shown, Session.exchange, Session.add, Session.drawn, patient.observe, patient.send]

theorem pass_run (h : runFrom (pass host config vars total run index r) s = (.ok run', s')) :
    run'.cancelled = run.cancelled := by
  obtain ⟨e, -, rfl⟩ := passed_of_pass h
  unfold FileRun.enter FileRun.count
  cases e.status <;> rfl

/-- A run that nobody cancels goes on from one request to the next. -/
theorem requestsFrom_cons_active (active : s.cancelled = false) :
    runFrom (requestsFrom host config vars total none run index (r :: rs)) s =
      match runFrom (pass host config vars total run index r) s with
      | (.ok run', s') => runFrom (requestsFrom host config vars total none run' (index + 1) rs) s'
      | (.error f, s') => (.error f, s') := by
  rw [runFrom_requestsFrom_cons, if_neg (by simp), if_neg (by simp [active])]
  rfl

/-- Without cancellation a run ends with all of its requests behind it or fails over a numeral. -/
theorem requestsFrom_ends_active (patient : host.Patient) (active : s.cancelled = false) :
    (∃ run' s', runFrom (requestsFrom host config vars total none run index rs) s =
        (.ok (some run'), s') ∧ run'.cancelled = run.cancelled) ∨
      ∃ s', runFrom (requestsFrom host config vars total none run index rs) s =
        (.error (.defect .tooManyDigits), s') := by
  induction rs generalizing run index s with
  | nil => exact .inl ⟨run, s, rfl, rfl⟩
  | cons r rest ih =>
    rw [requestsFrom_cons_active active]
    cases hp : runFrom (pass host config vars total run index r) s with
    | mk result s₁ =>
      cases result with
      | error f =>
        obtain rfl := pass_error hp
        exact .inr ⟨s₁, rfl⟩
      | ok run₁ =>
        rw [← pass_run hp]
        exact ih ((pass_cancelled patient hp).trans active)

/-- A run over requests comes to one of them, at a state of its own and of the session. -/
def ComesTo (host : Host σ) (config : RunConfig) (vars : List Variable) (total : Nat) (run : FileRun)
    (index : Nat) (rs : List Request) (s : Session σ) (r : Request) (run' : FileRun)
    (s' : Session σ) : Prop :=
  ∃ k, rs[k]? = some r ∧
    runFrom (requestsFrom host config vars total none run index (rs.take k)) s = (.ok (some run'), s')

theorem comesTo_cons_iff {r' : Request} (active : s.cancelled = false) :
    ComesTo host config vars total run index (r :: rs) s r' run' s' ↔
      (r' = r ∧ run' = run ∧ s' = s) ∨
        ∃ run₁ s₁, runFrom (pass host config vars total run index r) s = (.ok run₁, s₁) ∧
          ComesTo host config vars total run₁ (index + 1) rs s₁ r' run' s' := by
  constructor
  · rintro ⟨k, hk, ends⟩
    cases k with
    | zero =>
      cases hk
      cases ends
      exact .inl ⟨rfl, rfl, rfl⟩
    | succ k =>
      rw [List.take_succ_cons, requestsFrom_cons_active active] at ends
      cases hp : runFrom (pass host config vars total run index r) s with
      | mk result s₁ =>
        rw [hp] at ends
        cases result with
        | error f => cases ends
        | ok run₁ => exact .inr ⟨run₁, s₁, rfl, k, hk, ends⟩
  · rintro (⟨rfl, rfl, rfl⟩ | ⟨run₁, s₁, hp, k, hk, ends⟩)
    · exact ⟨0, rfl, rfl⟩
    · refine ⟨k + 1, hk, ?_⟩
      rw [List.take_succ_cons, requestsFrom_cons_active active, hp]
      exact ends

/-- Without cancellation a run fails just where it comes to a request that it would send, but for a
numeral in it that is too long. -/
theorem requestsFrom_fails_iff (patient : host.Patient) (active : s.cancelled = false) :
    (∃ f s', runFrom (requestsFrom host config vars total none run index rs) s = (.error f, s')) ↔
      ∃ r run' s₁, ComesTo host config vars total run index rs s r run' s₁ ∧
        refusal? run'.store r = none ∧
        Resolution.Overlong host.sources run'.store s₁.next r.texts := by
  induction rs generalizing run index s with
  | nil => simp [runFrom_requestsFrom_nil, ComesTo]
  | cons r rest ih =>
    rw [requestsFrom_cons_active active]
    simp only [comesTo_cons_iff active]
    cases hp : runFrom (pass host config vars total run index r) s with
    | mk result s₁ =>
      cases result with
      | error f =>
        have here := plan_fail_iff.1 (pass_fails_iff.1 ⟨f, s₁, hp⟩)
        exact ⟨fun _ => ⟨r, run, s, .inl ⟨rfl, rfl, rfl⟩, here⟩, fun _ => ⟨f, s₁, rfl⟩⟩
      | ok run₁ =>
        have active₁ := (pass_cancelled patient hp).trans active
        refine (ih active₁).trans ⟨?_, ?_⟩
        · rintro ⟨r', run', s₂, comes, there⟩
          exact ⟨r', run', s₂, .inr ⟨run₁, s₁, rfl, comes⟩, there⟩
        · rintro ⟨r', run', s₂, ⟨rfl, rfl, rfl⟩ | ⟨run₁', s₁', same, comes⟩, there⟩
          · obtain ⟨f, s₂, fails⟩ := pass_fails_iff.2 (plan_fail_iff.2 there)
            exact absurd (hp.symm.trans fails) (by simp)
          · cases same
            exact ⟨r', run', s₂, comes, there⟩

theorem Passed.index_eq {insecure : Bool} {store : Store} {e : Event}
    (h : Passed host insecure total store index r s e s') : e.index = index := by
  cases h <;> rfl

/-- The events of a run stand in the order of their requests. -/
theorem Reached.indices {insecure : Bool} {es : List Event} (h : Reached host insecure rs s es s') :
    es.map (·.index) = List.range es.length := by
  apply List.ext_getElem?
  intro i
  rw [List.getElem?_map]
  by_cases hi : i < es.length
  · obtain ⟨r, s₁, s₂, -, passed⟩ := h.history (List.getElem?_eq_getElem hi)
    rw [List.getElem?_eq_getElem hi, List.getElem?_range hi, Option.map_some, passed.index_eq]
  · rw [List.getElem?_eq_none (by omega), List.getElem?_eq_none (by simpa using hi)]
    rfl

/-- A request whose URL asks for filler text by so many zeros. -/
def fillerRequest (digits : Nat) : Request :=
  { method := "GET", url := String.ofList ("https://a/".toList ++ Function.longCall digits)
    name := none, headers := [], body := none, assertions := [], conditions := []
    dependsOn := none, timeout := none, connectionTimeout := none, preDelay := none
    postDelay := none }

theorem toList_url_fillerRequest (digits : Nat) : (fillerRequest digits).url.toList =
    "https://a/lorem_ipsum(".toList ++ (List.replicate digits '0' ++ [')']) :=
  String.toList_ofList

theorem writable_fillerRequest (digits : Nat) : RequestFile.Writable (fillerRequest digits) := by
  have start : Text.Compact "https://a/lorem_ipsum(".toList := by decide
  have url : Text.Compact (fillerRequest digits).url.toList := by
    rw [toList_url_fillerRequest]
    refine ⟨by simp, ?_⟩
    intro c hc
    rcases List.mem_append.1 hc with hc | hc
    · exact start.solid c hc
    · rcases List.mem_append.1 hc with hc | hc
      · rw [List.eq_of_mem_replicate hc]
        rfl
      · rw [List.mem_singleton.1 hc]
        rfl
  have version : ¬ "HTTP/".toList <+: (fillerRequest digits).url.toList := by
    rw [toList_url_fillerRequest, ← List.isPrefixOf_iff_prefix]
    exact Bool.false_ne_true
  exact
    { method := by simp [fillerRequest, RequestFile.methods], url, version
      name := by simp [fillerRequest], dependsOn := by simp [fillerRequest]
      timeout := by simp [fillerRequest], connectionTimeout := by simp [fillerRequest]
      preDelay := by simp [fillerRequest], postDelay := by simp [fillerRequest]
      conditions := by simp [fillerRequest], headers := by simp [fillerRequest]
      body := by simp [fillerRequest] }

theorem no_brace_fillerRequest (digits : Nat) : '{' ∉ (fillerRequest digits).url.toList := by
  have start : '{' ∉ "https://a/lorem_ipsum(".toList := by decide
  rw [toList_url_fillerRequest]
  intro brace
  rcases List.mem_append.1 brace with brace | brace
  · exact start brace
  · rcases List.mem_append.1 brace with brace | brace
    · exact absurd (List.eq_of_mem_replicate brace) (by decide)
    · exact absurd (List.mem_singleton.1 brace) (by decide)

def fillerText (digits : Nat) : String :=
  RequestFile.fileText [RequestFile.requestLine (fillerRequest digits)]

theorem parse_fillerText (digits : Nat) : ∃ p, RequestFile.parse [] (fillerText digits) = .ok p ∧
    p.requests = [fillerRequest digits] := by
  have writable := writable_fillerRequest digits
  have none : ∀ line ∈ ([] : List (List Char)), RequestFile.Idle line := by simp
  have written : RequestFile.Written (fillerRequest digits)
      [RequestFile.requestLine (fillerRequest digits)] := .intro none none .nil
  have start : RequestFile.Waiting [] .empty (.start []) :=
    ⟨rfl, rfl, rfl, fun _ => ⟨rfl, rfl⟩, rfl⟩
  obtain ⟨s, read, waiting⟩ := RequestFile.reads_written writable written _ 1 start
  refine ⟨s.result, ?_, waiting.finished⟩
  rw [RequestFile.parse, RequestFile.readText, fillerText,
    RequestFile.lines_fileText (written.unbroken writable), read]
  rfl

end Run

end DotHttp
