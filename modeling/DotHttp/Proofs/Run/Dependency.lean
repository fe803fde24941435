import DotHttp.Proofs.Run.Bookkeeping
import Mathlib.Data.List.Nodup
import Mathlib.Logic.Relation

/-!
Dependencies among the requests of a run. A request that is sent rests on a chain of earlier
successes that ends at a request without a dependency. Where no two requests are recorded under one
name, a request whose dependencies lead to a failure, a skipped request, an unknown name, a later
request or a cycle is therefore skipped.
-/

namespace DotHttp.Run

variable {σ : Type}

def SentAt (hs : List Happening) (i : Nat) : Prop :=
  ∃ q, (Happening.sendsByEvent hs).1[i]? = some [q]

/-- The request at `i` depends on the name under which the one at `j` is recorded. -/
def DependsOn (es : List Event) (i j : Nat) : Prop :=
  ∃ e d, es[i]? = some e ∧ es[j]? = some d ∧ e.request.dependency? = some d.name

def Succeeded (e : Event) : Prop :=
  ∃ o, e.outcome = some o ∧ o.success = true

/-- Positions from a request back to one without a dependency, each of an earlier success under the
name that the request before it in the chain depends on. -/
inductive Grounded (hs : List Happening) : Nat → List Nat → Prop
  | free {i : Nat} {e : Event} (he : (Happening.events hs)[i]? = some e)
      (hd : e.request.dependency? = none) : Grounded hs i []
  | next {i j : Nat} {chain : List Nat} {d : Event} (hlt : j < i)
      (hij : DependsOn (Happening.events hs) i j) (hsent : SentAt hs j)
      (hd : (Happening.events hs)[j]? = some d) (success : Succeeded d)
      (rest : Grounded hs j chain) : Grounded hs i (j :: chain)

/-- Why the name that the request at `m` depends on cannot serve the request at `i`. -/
inductive Unmet (es : List Event) (i m : Nat) (name : String) : Prop
  | unknown (h : ∀ d ∈ es, d.name ≠ name)
  | skipped {d : Event} (hd : d ∈ es) (hn : d.name = name) (h : d.status = .skipped)
  | failed {d : Event} (hd : d ∈ es) (hn : d.name = name) (h : d.status = .failed)
  /-- The name is that of the request itself or of a later one. -/
  | later {j : Nat} {d : Event} (hd : es[j]? = some d) (hn : d.name = name) (h : i ≤ j ∨ m ≤ j)

variable {host : Host σ} {insecure : Bool} {rs : List Request} {s₀ s : Session σ} {es : List Event}

theorem Reached.recorded (h : Reached host insecure rs s₀ es s) {i : Nat} {e : Event}
    (he : es[i]? = some e) : ∃ r, rs[i]? = some r ∧ Recorded rs.length i r e e.context := by
  obtain ⟨r, s₁, s₂, hr, hp⟩ := h.history he
  exact ⟨r, hr, hp.recorded⟩

theorem Reached.dependency (h : Reached host insecure rs s₀ es s) {i : Nat} {e : Event}
    (he : es[i]? = some e) (sent : e.outcome.isSome = true) {name : String}
    (hn : e.request.dependency? = some name) :
    ∃ j d, j < i ∧ es[j]? = some d ∧ d.name = name ∧ Succeeded d := by
  obtain ⟨r, s₁, s₂, hr, hp⟩ := h.history he
  cases hp with
  | skip refused hq => cases sent
  | @send q o next before after eligible same ho hb ha =>
    have hn' : r.dependency? = some name := by
      rw [← hn, Request.dependency?, Request.dependency?, ← same.dependsOn]; rfl
    obtain ⟨c, o, latest, hc, success⟩ := eligible.dependency name hn'
    obtain ⟨j, hj, hcj⟩ := latest.getElem?
    simp only [Store.ofEvents, List.length_map, List.length_take] at hj
    simp only [Store.ofEvents, List.getElem?_map, List.getElem?_take_of_lt (show j < i by omega),
      Option.map_eq_some_iff] at hcj
    obtain ⟨d, hd, rfl⟩ := hcj
    exact ⟨j, d, by omega, hd, latest.1, o, hc, success⟩

theorem sentAt_iff {hs : List Happening}
    (hsends : (Happening.sendsByEvent hs).1 = es.map fun e => e.context.sent) {i : Nat} :
    SentAt hs i ↔ ∃ e, es[i]? = some e ∧ e.outcome.isSome = true := by
  simp only [SentAt, hsends, List.getElem?_map, Option.map_eq_some_iff]
  constructor
  · rintro ⟨q, e, he, hq⟩
    refine ⟨e, he, ?_⟩
    by_contra ho
    simp [Context.sent, Event.context, ho] at hq
  · rintro ⟨e, he, ho⟩
    exact ⟨e.request, e, he, by simp [Context.sent, Event.context, ho]⟩

theorem Succeeded.isSome {e : Event} (h : Succeeded e) : e.outcome.isSome = true := by
  obtain ⟨o, ho, -⟩ := h
  rw [ho]; rfl

theorem Reached.grounded {hs : List Happening}
    (h : Reached host insecure rs s₀ (Happening.events hs) s)
    (hsends : (Happening.sendsByEvent hs).1 =
      (Happening.events hs).map fun e => e.context.sent) {i : Nat} {e : Event}
    (he : (Happening.events hs)[i]? = some e) (sent : e.outcome.isSome = true) :
    ∃ chain, Grounded hs i chain := by
  -- A dependency is met by an earlier position, from which the chain goes on.
  induction i using Nat.strongRecOn generalizing e with
  | ind i ih =>
    cases hn : e.request.dependency? with
    | none => exact ⟨[], .free he hn⟩
    | some name =>
      obtain ⟨j, d, hlt, hd, rfl, success⟩ := h.dependency he sent hn
      obtain ⟨chain, rest⟩ := ih j hlt hd success.isSome
      have hsent : SentAt hs j := (sentAt_iff hsends).2 ⟨d, hd, success.isSome⟩
      exact ⟨j :: chain, .next hlt ⟨e, d, he, hd, hn⟩ hsent hd success rest⟩

theorem eq_of_name (distinct : (es.map (·.name)).Nodup) {i j : Nat} {d d' : Event}
    (hi : es[i]? = some d) (hj : es[j]? = some d') (h : d.name = d'.name) : i = j := by
  have apart {i j : Nat} {d d' : Event} (hi : es[i]? = some d) (hj : es[j]? = some d')
      (h : d.name = d'.name) : ¬ i < j := by
    intro hlt
    have hl := (List.getElem?_eq_some_iff.1 hj).1
    apply List.nodup_iff_getElem?_ne_getElem?.1 distinct i j hlt (by simpa using hl)
    rw [List.getElem?_map, List.getElem?_map, hi, hj, Option.map_some, Option.map_some, h]
  exact Nat.le_antisymm (Nat.not_lt.1 (apart hj hi h.symm)) (Nat.not_lt.1 (apart hi hj h))

/-- Where names are distinct, what a sent request depends on was sent before it and succeeded. -/
theorem Reached.dependsOn (h : Reached host insecure rs s₀ es s)
    (distinct : (es.map (·.name)).Nodup) {i j : Nat} (hij : DependsOn es i j) {e : Event}
    (he : es[i]? = some e) (sent : e.outcome.isSome = true) :
    j < i ∧ ∃ d, es[j]? = some d ∧ Succeeded d := by
  obtain ⟨e', d, he', hd, hn⟩ := hij
  obtain rfl : e' = e := Option.some.inj (he'.symm.trans he)
  obtain ⟨k, d', hk, hd', hn', success⟩ := h.dependency he sent hn
  obtain rfl := eq_of_name distinct hd hd' hn'.symm
  exact ⟨hk, d', hd', success⟩

theorem Reached.dependsOn_path (h : Reached host insecure rs s₀ es s)
    (distinct : (es.map (·.name)).Nodup) {i m : Nat}
    (him : Relation.ReflTransGen (DependsOn es) i m) {e : Event} (he : es[i]? = some e)
    (sent : e.outcome.isSome = true) :
    m ≤ i ∧ ∃ d, es[m]? = some d ∧ d.outcome.isSome = true := by
  induction him with
  | refl => exact ⟨Nat.le_refl i, e, he, sent⟩
  | tail hik hkm ih =>
    obtain ⟨hki, d, hd, sent'⟩ := ih
    obtain ⟨hmk, d', hd', success⟩ := h.dependsOn distinct hkm hd sent'
    exact ⟨by omega, d', hd', success.isSome⟩

theorem Reached.not_sent_of_unmet (h : Reached host insecure rs s₀ es s)
    (distinct : (es.map (·.name)).Nodup) {i m : Nat}
    (him : Relation.ReflTransGen (DependsOn es) i m) {e d : Event} (he : es[i]? = some e)
    (hd : es[m]? = some d) {name : String} (hn : d.request.dependency? = some name)
    (unmet : Unmet es i m name) : ¬ e.outcome.isSome = true := by
  intro sent
  obtain ⟨hmi, d', hd', sent'⟩ := h.dependsOn_path distinct him he sent
  obtain rfl : d = d' := Option.some.inj (hd.symm.trans hd')
  obtain ⟨k, x, hk, hx, rfl, success⟩ := h.dependency hd sent' hn
  obtain ⟨r, hr, recorded⟩ := h.recorded hx
  have succeeded : x.status = .succeeded := recorded.succeeded.1 success
  have same {y : Event} (hy : y ∈ es) (hyx : y.name = x.name) : y = x := by
    obtain ⟨j, hj⟩ := List.mem_iff_getElem?.1 hy
    obtain rfl := eq_of_name distinct hj hx hyx
    exact Option.some.inj (hj.symm.trans hx)
  cases unmet with
  | unknown hu => exact hu x (List.mem_of_getElem? hx) rfl
  | skipped hy hyx hs => rw [same hy hyx, succeeded] at hs; cases hs
  | failed hy hyx hs => rw [same hy hyx, succeeded] at hs; cases hs
  | later hy hyx hl =>
    obtain rfl := eq_of_name distinct hy hx hyx
    omega

theorem Reached.not_sent_of_cycle (h : Reached host insecure rs s₀ es s)
    (distinct : (es.map (·.name)).Nodup) {i k : Nat}
    (hik : Relation.ReflTransGen (DependsOn es) i k) (cycle : Relation.TransGen (DependsOn es) k k)
    {e : Event} (he : es[i]? = some e) : ¬ e.outcome.isSome = true := by
  intro sent
  obtain ⟨-, d, hd, sent'⟩ := h.dependsOn_path distinct hik he sent
  -- Positions never rise along dependencies, and the last step of the cycle makes them fall.
  obtain ⟨m, hkm, hmk⟩ := Relation.TransGen.tail'_iff.1 cycle
  obtain ⟨hle, x, hx, sent''⟩ := h.dependsOn_path distinct hkm hd sent'
  have := (h.dependsOn distinct hmk hx sent'').1
  omega

/-- In every run, however it stops, a request with a dependency is sent only at the end of a chain of
earlier successes. With distinct names, requests whose dependencies lead to something unmet or into a
cycle are skipped. -/
theorem requests_dependencies (host : Host σ) (config : RunConfig) (vars : List Variable)
    (events : Option Nat) (filename : String) (rs : List Request) (s : Session σ) :
    ∃ hs es, (runFrom (requests host config vars events filename rs) s).2.happenings =
        s.happenings ++ hs ∧ Happening.events hs = es ∧
      (∀ i, SentAt hs i → ∃ chain, Grounded hs i chain) ∧
      ((es.map (·.name)).Nodup → ∀ i m e, es[i]? = some e →
        Relation.ReflTransGen (DependsOn es) i m →
        (∃ d name, es[m]? = some d ∧ d.request.dependency? = some name ∧ Unmet es i m name) ∨
          Relation.TransGen (DependsOn es) m m →
        e.status = .skipped ∧ ¬ SentAt hs i) := by
  obtain ⟨es, s₁, hs, reached, -, happened, rfl, sends⟩ := requests_stops
    (Prod.eta (runFrom (requests host config vars events filename rs) s)).symm
  have hsends : (Happening.sendsByEvent hs).1 =
      (Happening.events hs).map fun e => e.context.sent := by rw [sends]
  refine ⟨hs, _, happened, rfl, fun i hi => ?_, fun distinct i m e he him bad => ?_⟩
  · obtain ⟨e, he, sent⟩ := (sentAt_iff hsends).1 hi
    exact reached.grounded hsends he sent
  · have unsent : ¬ e.outcome.isSome = true := by
      rcases bad with ⟨d, name, hd, hn, unmet⟩ | cycle
      · exact reached.not_sent_of_unmet distinct him he hd hn unmet
      · exact reached.not_sent_of_cycle distinct him cycle he
    obtain ⟨r, hr, recorded⟩ := reached.recorded he
    have none : e.outcome = none := by simpa using unsent
    refine ⟨recorded.skipped.1 none, fun hi => ?_⟩
    obtain ⟨e', he', sent⟩ := (sentAt_iff hsends).1 hi
    obtain rfl : e = e' := Option.some.inj (he.symm.trans he')
    exact unsent sent

/-- The second of four requests depends on the first, the other two on each other. -/
theorem requests_dependencies_beside_cycle :
    let rs : List Request :=
      [.get "a" none, .get "b" (some "a"), .get "c" (some "d"), .get "d" (some "c")]
    let s' : Session Dialogue := (runFrom (requests ((Script.ofStatuses [200, 200]).host fun _ => true)
      .default [] none "a.http" rs) .fresh).2
    (∃ chain, Grounded s'.happenings 1 chain) ∧ ¬ SentAt s'.happenings 2 := by
  intro rs s'
  obtain ⟨hs, es, happened, rfl, chains, skipped⟩ := requests_dependencies
    ((Script.ofStatuses [200, 200]).host fun _ => true) .default [] none "a.http" rs .fresh
  obtain rfl : s'.happenings = hs := happened
  let c := Event.skipped 2 4 (.get "c" (some "d")) "dependency 'd' not met"
  let d := Event.skipped 3 4 (.get "d" (some "c")) "dependency 'c' not met"
  have hc : (Happening.events s'.happenings)[2]? = some c := by decide +kernel
  have hd : (Happening.events s'.happenings)[3]? = some d := by decide +kernel
  have cycle : Relation.TransGen (DependsOn (Happening.events s'.happenings)) 2 2 :=
    .tail (.single ⟨c, d, hc, hd, by decide +kernel⟩) ⟨d, c, hd, hc, by decide +kernel⟩
  refine ⟨chains 1 ⟨.get "b" (some "a"), by decide +kernel⟩, ?_⟩
  exact (skipped (by decide +kernel) 2 2 c hc .refl (.inr cycle)).2

end DotHttp.Run
