import DotHttp.Proofs.Run.Dependency
import DotHttp.Proofs.Run.Dispatching

/-!
Alternatives: two requests of which one has a condition and the other the same condition negated. Of two
such requests a run sends exactly one, if the condition can be decided at all, whichever way the comparison
goes and whatever there is to compare.
-/

namespace DotHttp

/-- The condition that is met by just the answers that this one is not met by. -/
def Condition.opposite (c : Condition) : Condition :=
  { c with negated := !c.negated }

namespace Condition

variable {c : Condition} {store : Store}

theorem opposite_met_iff {x : Context} {o : Outcome} (latest : store.Latest c.requestName x)
    (answered : x.outcome = some o) :
    (c.opposite.evaluate store).met = true ↔ ¬ (c.evaluate store).met = true := by
  have found : store.outcome? c.requestName = some o := by rw [latest.outcome?, answered]
  have named : c.opposite.requestName = c.requestName := rfl
  rw [evaluate, evaluate, named, found]
  -- Both compare the same; only what is made of it differs.
  change ((c.compare o).2 != !c.negated) = true ↔ ¬ ((c.compare o).2 != c.negated) = true
  cases (c.compare o).2 <;> cases c.negated <;> decide

end Condition

namespace Run

variable {σ : Type}

/-- A request at a place of a file that nothing but a condition keeps from being sent, once the run has come
to it with some events. -/
structure Hinges (rs : List Request) (es : List Event) (i : Nat) (r : Request) (c : Condition) :
    Prop where
  place : rs[i]? = some r
  free : r.dependency? = none
  condition : r.conditions = [c]
  resolves : i < es.length → r.Resolves (.ofEvents (es.take i))

variable {host : Host σ} {insecure : Bool} {rs : List Request} {s₀ s : Session σ} {es : List Event}
  {i j : Nat} {r : Request} {c : Condition}

theorem Hinges.eligible_iff (h : Hinges rs es i r c) (reached : i < es.length) :
    Eligible (.ofEvents (es.take i)) r ↔ (c.evaluate (.ofEvents (es.take i))).met = true := by
  rw [Condition.met_iff]
  constructor
  · intro eligible
    exact eligible.conditions c (h.condition ▸ List.mem_singleton_self c)
  · intro met
    refine ⟨fun name named => ?_, ?_, h.resolves reached⟩
    · rw [h.free] at named
      cases named
    · rw [h.condition]
      exact List.forall_mem_singleton.2 met

/-- Whether a request that hinges on a condition is sent is told by the condition. -/
theorem Hinges.sentAt_iff {hs : List Happening} (h : Hinges rs es i r c)
    (reached : Reached host insecure rs s₀ es s)
    (sends : (Happening.sendsByEvent hs).1 = es.map fun e => e.context.sent) :
    SentAt hs i ↔ i < es.length ∧ (c.evaluate (.ofEvents (es.take i))).met = true := by
  rw [Run.sentAt_iff sends]
  constructor
  · rintro ⟨e, he, sent⟩
    obtain ⟨within, -⟩ := List.getElem?_eq_some_iff.1 he
    obtain ⟨r', s₁, s₂, hr, passed⟩ := reached.history he
    obtain rfl : r = r' := Option.some.inj (h.place.symm.trans hr)
    refine ⟨within, (h.eligible_iff within).1 ?_⟩
    by_contra refused
    rw [show e.outcome = none from (passed.dispatched.refused refused).2.2] at sent
    cases sent
  · rintro ⟨within, met⟩
    obtain ⟨e, he⟩ : ∃ e, es[i]? = some e := ⟨_, List.getElem?_eq_getElem within⟩
    obtain ⟨r', s₁, s₂, hr, passed⟩ := reached.history he
    obtain rfl : r = r' := Option.some.inj (h.place.symm.trans hr)
    exact ⟨e, he, (passed.dispatched.eligible ((h.eligible_iff within).2 met)).2⟩

/-- What is recorded last under a name at one place is so at a later one, if nothing was recorded under this
name from the one to the other. -/
theorem latest_later {name : String} {x : Context} (le : i ≤ j)
    (others : ∀ k e, i ≤ k → k < j → es[k]? = some e → e.name ≠ name) :
    (Store.ofEvents (es.take j)).Latest name x ↔ (Store.ofEvents (es.take i)).Latest name x := by
  have split : es.take j = es.take i ++ (es.take j).drop i := by
    calc
      es.take j = (es.take j).take i ++ (es.take j).drop i := (List.take_append_drop ..).symm
      _ = _ := by rw [List.take_take, Nat.min_eq_left le]
  rw [split, Store.ofEvents, Store.ofEvents, List.map_append]
  apply Store.latest_append_iff
  rw [List.forall_mem_map]
  intro e later
  obtain ⟨k, hk⟩ := List.mem_iff_getElem?.1 later
  rw [List.getElem?_drop, List.getElem?_take] at hk
  split at hk
  · next within => exact others (i + k) e (Nat.le_add_right i k) within hk
  · cases hk

/-- In every run, however it stops: where an answer is on record under the name that a condition asks for,
the request with the opposite condition is sent just if the run comes to it and the one before it was not
sent. Without such an answer neither is. -/
theorem requests_alternatives (host : Host σ) (config : RunConfig) (vars : List Variable)
    (events : Option Nat) (filename : String) (rs : List Request) (s : Session σ) :
    ∃ hs es, (runFrom (requests host config vars events filename rs) s).2.happenings =
        s.happenings ++ hs ∧ Happening.events hs = es ∧
      ∀ i j r r' c, i < j → Hinges rs es i r c → Hinges rs es j r' c.opposite →
        (∀ k e, i ≤ k → k < j → es[k]? = some e → e.name ≠ c.requestName) →
        ((∃ x o, (Store.ofEvents (es.take i)).Latest c.requestName x ∧ x.outcome = some o) →
          (SentAt hs j ↔ j < es.length ∧ ¬ SentAt hs i)) ∧
        ((¬ ∃ x o, (Store.ofEvents (es.take i)).Latest c.requestName x ∧ x.outcome = some o) →
          ¬ SentAt hs i ∧ ¬ SentAt hs j) := by
  obtain ⟨es, s₁, hs, reached, -, happened, rfl, sends⟩ := requests_stops
    (Prod.eta (runFrom (requests host config vars events filename rs) s)).symm
  have hsends : (Happening.sendsByEvent hs).1 =
      (Happening.events hs).map fun e => e.context.sent := by rw [sends]
  refine ⟨hs, _, happened, rfl, ?_⟩
  intro i j r r' c lt first second others
  rw [first.sentAt_iff reached hsends, second.sentAt_iff reached hsends]
  have same {x : Context} := latest_later (x := x) (Nat.le_of_lt lt) others
  constructor
  · rintro ⟨x, o, latest, answered⟩
    have earlier : (c.evaluate (.ofEvents ((Happening.events hs).take j))).met = true ↔
        (c.evaluate (.ofEvents ((Happening.events hs).take i))).met = true := by
      simp only [Condition.met_iff, same]
    rw [Condition.opposite_met_iff (same.2 latest) answered, earlier]
    constructor
    · rintro ⟨within, unmet⟩
      exact ⟨within, fun sent => unmet sent.2⟩
    · rintro ⟨within, unsent⟩
      exact ⟨within, fun met => unsent ⟨Nat.lt_trans lt within, met⟩⟩
  · intro unanswered
    constructor
    · rintro ⟨-, met⟩
      obtain ⟨x, o, latest, answered, -⟩ := Condition.met_iff.1 met
      exact unanswered ⟨x, o, latest, answered⟩
    · rintro ⟨-, met⟩
      obtain ⟨x, o, latest, answered, -⟩ := Condition.met_iff.1 met
      exact unanswered ⟨x, o, same.1 latest, answered⟩

/-- A request with the condition that an earlier one was answered with a status. -/
def given (name asked status : String) (negated : Bool) : Request :=
  { Request.get name none with conditions := [⟨asked, .status, status, negated, none⟩] }

theorem resolves_given (store : Store) (name asked status : String) (negated : Bool) :
    (given name asked status negated).Resolves store := by
  have parts : Placeholder.segments "https://e.com".toList = "https://e.com".toList.map .char := by
    decide +kernel
  refine ⟨?_, List.forall_mem_nil _, nofun, List.forall_mem_nil _⟩
  intro part hp
  obtain ⟨c, -, rfl⟩ := List.mem_map.1 (parts ▸ hp : part ∈ "https://e.com".toList.map .char)
  trivial

/-- Two pairs of alternatives, one on a request that was answered and one on a name that is not there. -/
theorem requests_alternatives_each_way :
    let rs : List Request := [.get "a" none, given "b" "a" "404" false, .get "c" none,
      given "d" "a" "404" true, given "e" "x" "404" false, given "f" "x" "404" true]
    let hs := (runFrom (requests ((Script.ofStatuses [200, 200, 200]).host fun _ => true) .default []
      none "a.http" rs) .fresh).2.happenings
    (SentAt hs 3 ∧ ¬ SentAt hs 1) ∧ ¬ SentAt hs 4 ∧ ¬ SentAt hs 5 := by
  intro rs hs
  obtain ⟨hs', es, happened, reported, alternatives⟩ := requests_alternatives
    ((Script.ofStatuses [200, 200, 200]).host fun _ => true) .default [] none "a.http" rs .fresh
  obtain rfl : hs = hs' := happened
  have names : es.map (·.name) = ["a", "b", "c", "d", "e", "f"] := by
    rw [← reported]
    decide +kernel
  have others {asked : String} {i j : Nat} (h : asked ∉ (["a", "b", "c", "d", "e", "f"].take j).drop i) :
      ∀ k e, i ≤ k → k < j → es[k]? = some e → e.name ≠ asked := by
    rintro k e le lt he rfl
    apply h
    rw [← names, ← List.map_take, ← List.map_drop]
    refine List.mem_map_of_mem (List.mem_iff_getElem?.2 ⟨k - i, ?_⟩)
    rw [List.getElem?_drop, Nat.add_sub_cancel' le, List.getElem?_take_of_lt lt, he]
  have hinges (name : String) {i : Nat} {asked status : String} {negated : Bool}
      (place : rs[i]? = some (given name asked status negated)) :
      Hinges rs es i (given name asked status negated) ⟨asked, .status, status, negated, none⟩ :=
    ⟨place, rfl, rfl, fun _ => resolves_given ..⟩
  have answered := (alternatives 1 3 _ _ _ (by decide) (hinges "b" rfl)
    (hinges "d" rfl) (others (by decide))).1
  have unknown := (alternatives 4 5 _ _ _ (by decide) (hinges "e" rfl)
    (hinges "f" rfl) (others (by decide))).2
  have latest : (Store.ofEvents (es.take 1)).Latest "a"
      ⟨"a", .get "a" none, some ⟨200, true, 0, none, none, none, none, []⟩⟩ := by
    rw [← Store.get?_eq_some_iff, ← reported]
    decide +kernel
  have missing : (Store.ofEvents (es.take 4)).get? "x" = none := by
    rw [← reported]
    decide +kernel
  have unsent : ¬ SentAt hs 1 := by
    have none : (Happening.sendsByEvent hs).1[1]? = some [] := by decide +kernel
    rintro ⟨q, sent⟩
    rw [none] at sent
    cases sent
  have within : 3 < es.length := by rw [← List.length_map (·.name), names]; decide
  refine ⟨⟨(answered ⟨_, _, latest, rfl⟩).2 ⟨within, unsent⟩, unsent⟩, unknown ?_⟩
  rintro ⟨x, o, found, -⟩
  rw [Store.get?_eq_some_iff.2 found] at missing
  cases missing

/-- A run that is stopped between two alternatives: the first is not sent, and the second is not come to. -/
theorem requests_alternatives_stopped :
    let c : Condition := ⟨"a", .status, "404", false, none⟩
    let rs : List Request := [.get "a" none, given "b" "a" "404" false, given "d" "a" "404" true]
    let hs := (runFrom (requests ((Script.ofStatuses [200, 200]).host fun es => es.length < 2) .default
      [] none "a.http" rs) .fresh).2.happenings
    let es := Happening.events hs
    Hinges rs es 1 (given "b" "a" "404" false) c ∧
      Hinges rs es 2 (given "d" "a" "404" true) c.opposite ∧
      (∀ e ∈ es[1]?, e.name ≠ c.requestName) ∧
      (∃ x o, (Store.ofEvents (es.take 1)).Latest c.requestName x ∧ x.outcome = some o) ∧
      ¬ SentAt hs 1 ∧ ¬ SentAt hs 2 := by
  intro c rs hs es
  have unsent {i : Nat} (h : (Happening.sendsByEvent hs).1[i]? ∈ [none, some []]) : ¬ SentAt hs i := by
    rintro ⟨q, sent⟩
    rw [sent] at h
    simp at h
  have latest : (Store.ofEvents (es.take 1)).Latest "a"
      ⟨"a", .get "a" none, some ⟨200, true, 0, none, none, none, none, []⟩⟩ := by
    rw [← Store.get?_eq_some_iff]
    decide +kernel
  exact ⟨⟨rfl, rfl, rfl, fun _ => resolves_given ..⟩, ⟨rfl, rfl, rfl, fun _ => resolves_given ..⟩,
    by decide +kernel, ⟨_, _, latest, rfl⟩, unsent (by decide +kernel), unsent (by decide +kernel)⟩

end Run

end DotHttp
