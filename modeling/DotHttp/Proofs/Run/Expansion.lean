import DotHttp.Proofs.Resolution.Expansion
import DotHttp.Proofs.Run.Scripted

/-!
Runs under different environments. Variables are put into a request after all else, whatever wrote
the placeholders that they fill: the file, an earlier answer or a function. Up to the first request
that carries the name of one, a run is the run without any variables.
-/

namespace DotHttp

variable {σ : Type}

/-- A text in which every placeholder is a reference to an earlier request. -/
def onlyReferences (text : String) : Bool :=
  (Placeholder.segments text.toList).all fun
    | .char _ => true
    | .placeholder inner => (Reference.parse? (String.ofList inner)).isSome

def Plan.expand (vars : List Variable) : Plan → Plan
  | .send resolved => .send (resolved.expand vars)
  | p => p

/-- A plan that sends no request in which a placeholder carries the name of a variable. -/
def Plan.Silent (vars : List Variable) (p : Plan) : Prop :=
  ∀ q, p = .send q → q.Silent vars

theorem Plan.expand_of_silent {vars : List Variable} {p : Plan} (h : p.Silent vars) :
    p.expand vars = p := by
  cases p with
  | send q => rw [expand, Request.expand_of_silent (h q rfl)]
  | skip | fail => rfl

theorem plan_expand (src : Sources) (store : Store) (vars : List Variable) (r : Request)
    (next : Nat) :
    plan src store vars r next =
      ((plan src store [] r next).1.expand vars, (plan src store [] r next).2) := by
  unfold plan
  cases refusal? store r with
  | some reason => rfl
  | none =>
    rw [Resolution.request_expand src store vars r, runFrom_map]
    generalize runFrom (Resolution.request src store [] r) ⟨next, []⟩ = done
    obtain ⟨(_ | _) | _, _⟩ := done <;> rfl

namespace Run

variable {host : Host σ} {config : RunConfig} {vars : List Variable} {total : Nat}
  {events : Option Nat} {run : FileRun} {index : Nat} {r : Request} {s s' : Session σ}

/-- The requests that a plan has sent. -/
def sentBy (config : RunConfig) : Plan → List Request
  | .send resolved => [withTimeouts config resolved]
  | _ => []

theorem silent_withTimeouts {q : Request} : (withTimeouts config q).Silent vars ↔ q.Silent vars :=
  ⟨fun h => ⟨h.url, h.headers, h.body, h.assertions⟩, fun h => ⟨h.url, h.headers, h.body, h.assertions⟩⟩

theorem pass_of_silent
    (h : (plan host.sources run.store [] r s.next).1.Silent vars) :
    runFrom (pass host config vars total run index r) s =
      runFrom (pass host config [] total run index r) s := by
  rw [runFrom_pass, runFrom_pass, plan_expand host.sources run.store vars r s.next,
    Plan.expand_of_silent h]

theorem pass_sends (host : Host σ) (config : RunConfig) (vars : List Variable) (total : Nat)
    (run : FileRun) (index : Nat) (r : Request) (s : Session σ) :
    ∃ hs, (runFrom (pass host config vars total run index r) s).2.happenings = s.happenings ++ hs ∧
      Happening.sends hs = sentBy config (plan host.sources run.store vars r s.next).1 := by
  rw [runFrom_pass]
  generalize plan host.sources run.store vars r s.next = planned
  obtain ⟨reason | q | _, next, ns⟩ := planned
  · refine ⟨waits config index ++ ns.map .note ++ [skipNote index r reason] ++
      [.event (.skipped index total r reason)], ?_, ?_⟩
    · simp only [Session.shown, Session.add, Session.drawn, List.append_assoc]
    · simp only [Happening.sends_append, (quiet_waits _ _).sends, (Happening.quiet_notes _).sends]
      rfl
  · let p := withTimeouts config q
    let reply := (host.send p config.insecure s.world).1
    let o := verdict p reply.outcome
    let e := Event.answered index total p o
    refine ⟨waits config index ++ ns.map .note ++ pauses q.preDelay ++ [.send p config.insecure] ++
      reply.remarks.map Remark.happening ++ pauses q.postDelay ++ [finishNote p e o, .event e], ?_, ?_⟩
    · simp [Session.shown, Session.exchange, Session.add, Session.drawn, p, reply, o, e]
    · simp only [Happening.sends_append, (quiet_waits _ _).sends, (Happening.quiet_notes _).sends,
        (quiet_pauses _).sends, (Happening.quiet_remarks _).sends]
      rfl
  · exact ⟨_, rfl, ((quiet_waits config index).append (Happening.quiet_notes ns)).sends⟩

theorem requestsFrom_happens (host : Host σ) (config : RunConfig) (vars : List Variable)
    (total : Nat) (events : Option Nat) (run : FileRun) (index : Nat) (rs : List Request)
    (s : Session σ) :
    ∃ hs, (runFrom (requestsFrom host config vars total events run index rs) s).2.happenings =
      s.happenings ++ hs := by
  induction rs generalizing events run index s with
  | nil => exact ⟨[], by simp [runFrom_requestsFrom_nil]⟩
  | cons r rest ih =>
    obtain ⟨hs, happened, -⟩ := pass_sends host config vars total run index r s
    rw [runFrom_requestsFrom_cons]
    split
    · exact ⟨[], by simp⟩
    split
    · exact ⟨_, rfl⟩
    split
    · next passed =>
      obtain ⟨hs', happened'⟩ := ih (events.map (· - 1)) _ (index + 1) _
      rw [passed] at happened
      exact ⟨hs ++ hs', by rw [happened', happened, List.append_assoc]⟩
    · next passed =>
      rw [passed] at happened
      exact ⟨hs, happened⟩

/-- What a run sends begins with what it sends for its first request. -/
theorem requestsFrom_cons_sends (host : Host σ) (config : RunConfig) (vars : List Variable)
    (total : Nat) (run : FileRun) (index : Nat) (r : Request) (rest : List Request)
    (hz : events ≠ some 0) (hc : s.cancelled = false) :
    ∃ hs, (runFrom (requestsFrom host config vars total events run index (r :: rest)) s).2.happenings =
        s.happenings ++ hs ∧
      sentBy config (plan host.sources run.store vars r s.next).1 <+: Happening.sends hs := by
  obtain ⟨hs, happened, sends⟩ := pass_sends host config vars total run index r s
  rw [runFrom_requestsFrom_cons, if_neg hz, if_neg (by simp [hc])]
  split
  · next passed =>
    obtain ⟨hs', happened'⟩ := requestsFrom_happens host config vars total (events.map (· - 1)) _
      (index + 1) rest _
    rw [passed] at happened
    refine ⟨hs ++ hs', by rw [happened', happened, List.append_assoc], ?_⟩
    rw [Happening.sends_append, sends]
    exact List.prefix_append _ _
  · next passed =>
    rw [passed] at happened
    exact ⟨hs, happened, sends ▸ List.prefix_rfl⟩

/-- The trace of a run with variables, next to that of the run without: they tell of the same requests
until one of these names a variable. -/
def SameUntilNamed (vars : List Variable) (s : Session σ)
    (bare full : Except Failure (Option FileRun) × Session σ) : Prop :=
  ∃ hs hs', bare.2.happenings = s.happenings ++ hs ∧ full.2.happenings = s.happenings ++ hs' ∧
    ∀ k, (∀ q ∈ (Happening.sends hs).take k, q.Silent vars) →
      (Happening.sends hs').take k = (Happening.sends hs).take k ∧
        ((Happening.sends hs).length ≤ k → full = bare)

theorem SameUntilNamed.refl {ending : Except Failure (Option FileRun) × Session σ}
    (h : ∃ hs, ending.2.happenings = s.happenings ++ hs) : SameUntilNamed vars s ending ending := by
  obtain ⟨hs, happened⟩ := h
  exact ⟨hs, hs, happened, happened, fun k _ => ⟨rfl, fun _ => rfl⟩⟩

/-- Two runs are compared from where a request that they share has left them. -/
theorem SameUntilNamed.after {s₁ : Session σ} {bare full : Except Failure (Option FileRun) × Session σ}
    (shared : ∃ hs, s₁.happenings = s.happenings ++ hs) (h : SameUntilNamed vars s₁ bare full) :
    SameUntilNamed vars s bare full := by
  obtain ⟨hs, happened⟩ := shared
  obtain ⟨hs₀, hs₁, happened₀, happened₁, same⟩ := h
  refine ⟨hs ++ hs₀, hs ++ hs₁, ?_, ?_, fun k silent => ?_⟩
  · rw [happened₀, happened, List.append_assoc]
  · rw [happened₁, happened, List.append_assoc]
  · simp only [Happening.sends_append, List.take_append, List.length_append] at silent ⊢
    obtain ⟨agree, equal⟩ := same (k - (Happening.sends hs).length)
      fun q hq => silent q (List.mem_append_right _ hq)
    exact ⟨by rw [agree], fun hk => equal (by omega)⟩

/-- Nothing is said of runs of which the bare one sends a request that names a variable first. -/
theorem SameUntilNamed.of_named {bare full : Except Failure (Option FileRun) × Session σ} {q : Request}
    (named : ¬ q.Silent vars)
    (hb : ∃ hs, bare.2.happenings = s.happenings ++ hs ∧ [q] <+: Happening.sends hs)
    (hf : ∃ hs, full.2.happenings = s.happenings ++ hs) : SameUntilNamed vars s bare full := by
  obtain ⟨hs, happened, more, sends⟩ := hb
  obtain ⟨hs', happened'⟩ := hf
  refine ⟨hs, hs', happened, happened', fun k silent => ?_⟩
  rw [← sends] at silent ⊢
  cases k with
  | zero => exact ⟨rfl, fun h => by simp at h⟩
  | succ k => exact (named (silent q (by simp))).elim

/-- A run with variables is the one without, as long as that one sends no request that names one. -/
theorem requestsFrom_sameUntilNamed (host : Host σ) (config : RunConfig) (vars : List Variable)
    (total : Nat) (events : Option Nat) (run : FileRun) (index : Nat) (rs : List Request)
    (s : Session σ) :
    SameUntilNamed vars s (runFrom (requestsFrom host config [] total events run index rs) s)
      (runFrom (requestsFrom host config vars total events run index rs) s) := by
  induction rs generalizing events run index s with
  | nil => exact .refl ⟨[], by simp [runFrom_requestsFrom_nil]⟩
  | cons r rest ih =>
    obtain ⟨hs, happened, -⟩ := pass_sends host config [] total run index r s
    by_cases hz : events = some 0
    · rw [runFrom_requestsFrom_cons, runFrom_requestsFrom_cons, if_pos hz, if_pos hz]
      exact .refl ⟨[], by simp⟩
    by_cases hc : s.cancelled = true
    · rw [runFrom_requestsFrom_cons, runFrom_requestsFrom_cons, if_neg hz, if_neg hz, if_pos hc,
        if_pos hc]
      exact .refl ⟨_, rfl⟩
    by_cases h : (plan host.sources run.store [] r s.next).1.Silent vars
    · rw [runFrom_requestsFrom_cons, runFrom_requestsFrom_cons, if_neg hz, if_neg hz, if_neg hc,
        if_neg hc, pass_of_silent h]
      split
      · next passed => rw [passed] at happened; exact (ih _ _ _ _).after ⟨hs, happened⟩
      · next passed => rw [passed] at happened; exact .refl ⟨hs, happened⟩
    · obtain ⟨q, planned, named⟩ : ∃ q, (plan host.sources run.store [] r s.next).1 = .send q ∧
          ¬ q.Silent vars := by simpa [Plan.Silent] using h
      have first := requestsFrom_cons_sends host config [] total run index r rest hz (by simpa using hc)
      rw [planned] at first
      exact .of_named (fun h => named (silent_withTimeouts.1 h)) first (requestsFrom_happens ..)

/-- Under any two environments, runs over the same requests send the same requests up to the first
one that names a variable of either in the run without variables; if none does, the runs are equal. -/
theorem requests_same_until_named (host : Host σ) (config : RunConfig) (events : Option Nat)
    (filename : String) (rs : List Request) (s : Session σ) (vars₁ vars₂ : List Variable) :
    let run vars := runFrom (requests host config vars events filename rs) s
    ∃ hs hs₁ hs₂, (run []).2.happenings = s.happenings ++ hs ∧
      (run vars₁).2.happenings = s.happenings ++ hs₁ ∧
      (run vars₂).2.happenings = s.happenings ++ hs₂ ∧
      ∀ k, (∀ q ∈ (Happening.sends hs).take k, q.Silent vars₁ ∧ q.Silent vars₂) →
        (Happening.sends hs₁).take k = (Happening.sends hs₂).take k ∧
          ((Happening.sends hs).length ≤ k → run vars₁ = run vars₂) := by
  intro run
  obtain ⟨hs, hs₁, happened, happened₁, same₁⟩ :=
    requestsFrom_sameUntilNamed host config vars₁ rs.length events (.start filename) 0 rs s
  obtain ⟨hs', hs₂, happened', happened₂, same₂⟩ :=
    requestsFrom_sameUntilNamed host config vars₂ rs.length events (.start filename) 0 rs s
  obtain rfl : hs = hs' := List.append_cancel_left (happened.symm.trans happened')
  refine ⟨hs, hs₁, hs₂, happened, happened₁, happened₂, fun k silent => ?_⟩
  obtain ⟨agree₁, equal₁⟩ := same₁ k fun q hq => (silent q hq).1
  obtain ⟨agree₂, equal₂⟩ := same₂ k fun q hq => (silent q hq).2
  exact ⟨agree₁.trans agree₂.symm, fun hk => (equal₁ hk).trans (equal₂ hk).symm⟩

/-- A file whose second request takes its path from the answer to the first, and its requests. -/
def followedText : String :=
  "# @name a\nGET https://a\n\n###\nGET https://b/\x7b\x7ba.response.body.*\x7d\x7d"

def followed : List Request :=
  [⟨"GET", "https://a", some "a", [], none, [], [], none, none, none, none, none⟩,
    ⟨"GET", "https://b/\x7b\x7ba.response.body.*\x7d\x7d", none, [], none, [], [], none, none, none, none,
      none⟩]

/-- The answer is of no concern to either environment. -/
theorem requests_same_until_named_harmless :
    let run vars := runFrom (requests ((Script.ofBody "\x7b\x7bid\x7d\x7d").host fun _ => true) .default vars
      none "a.http" followed) .fresh
    (run [⟨"token", "s3cr3t"⟩]).2.world.received.map (·.url) =
        ["https://a", "https://b/\x7b\x7bid\x7d\x7d"] ∧
      run [⟨"token", "s3cr3t"⟩] = run [⟨"name", "x"⟩] := by
  intro run
  obtain ⟨hs, hs₁, hs₂, happened, -, -, same⟩ := requests_same_until_named
    ((Script.ofBody "\x7b\x7bid\x7d\x7d").host fun _ => true) .default none "a.http" followed .fresh
    [⟨"token", "s3cr3t"⟩] [⟨"name", "x"⟩]
  obtain rfl : (run []).2.happenings = hs := happened
  exact ⟨by decide +kernel, (same 2 (by decide +kernel)).2 (by decide +kernel)⟩

/-- It is not the file alone that decides which variables reach a request: an answer may bring the
placeholder of one, and what a reference has put in place is read once more for variables. -/
theorem answers_name_variables :
    ¬ ∀ (script : Script) (callback : List Event → Bool) (config : RunConfig) (text : String)
      (rs : List Request) (vars₁ vars₂ : List Variable),
      (RequestFile.parse [] text).map (·.requests) = .ok rs → onlyReferences text = true →
        let run vars := runFrom (requests (script.host callback) config vars none "a.http" rs) .fresh
        (run vars₁).2.world.received = (run vars₂).2.world.received := by
  intro h
  have same := h (.ofBody "\x7b\x7btoken\x7d\x7d") (fun _ => true) .default followedText followed
    [⟨"token", "s3cr3t"⟩] [] (by decide +kernel) (by decide +kernel)
  revert same
  decide +kernel

end Run

end DotHttp
