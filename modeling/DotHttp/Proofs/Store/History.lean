import DotHttp.Proofs.Store.Latest

/-!
A store after any history of calls that record requests. Its contexts are these calls in order, and
the index beside them agrees with them, whatever names the calls share.
-/

namespace DotHttp.Store

/-- A call that records a request. -/
structure Entry where
  request : Request
  outcome : Option Outcome
  position : Int
  deriving DecidableEq, Repr

namespace Entry

def name (e : Entry) : String :=
  nameFor e.request e.position

def context (e : Entry) : Context :=
  ⟨e.name, e.request, e.outcome⟩

end Entry

/-- The store after some calls, made one after the other. -/
def ofEntries (es : List Entry) : Store :=
  es.foldl (fun s e => s.record e.request e.outcome e.position) .empty

/-- What a store tells of the calls that made it. -/
structure Keeps (es : List Entry) (s : Store) : Prop where
  contexts : s.contexts = es.map Entry.context
  /-- The last call of a name is found, also where it has no outcome and an earlier one has. -/
  latest : ∀ before e after, es = before ++ e :: after → (∀ d ∈ after, d.name ≠ e.name) →
    s.get? e.name = some e.context ∧ s.outcome? e.name = e.outcome
  unknown : ∀ name, (∀ e ∈ es, e.name ≠ name) → s.outcome? name = none
  missing : ∀ name, s.get? name = none ↔ ∀ e ∈ es, e.name ≠ name
  contains : ∀ name, s.contains name = true ↔ ∃ e ∈ es, e.name = name
  names : s.names = es.map Entry.name
  size : s.size = es.length
  index : ∀ name place, (name, place) ∈ s.index ↔ s.LatestAt name place
  distinct : (s.index.map Prod.fst).Nodup

theorem contexts_ofEntries (es : List Entry) : (ofEntries es).contexts = es.map Entry.context := by
  induction es using List.reverseRecOn with
  | nil => rfl
  | append_singleton es e ih =>
    rw [ofEntries, List.foldl_append, List.map_append, ← ih]
    rfl

/-- Whatever the calls, contexts and index agree with them and with each other. -/
theorem ofEntries_keeps (es : List Entry) : Keeps es (ofEntries es) := by
  have contexts := contexts_ofEntries es
  have missing (name : String) :
      (ofEntries es).get? name = none ↔ ∀ e ∈ es, e.name ≠ name := by
    rw [get?_eq_none_iff, contexts, List.forall_mem_map]
    rfl
  exact
    { contexts
      latest := by
        rintro before e after rfl last
        have found : (ofEntries (before ++ e :: after)).get? e.name = some e.context := by
          rw [get?_eq_some_iff]
          refine ⟨rfl, before.map Entry.context, after.map Entry.context, ?_, ?_⟩
          · rw [contexts, List.map_append, List.map_cons]
          · exact List.forall_mem_map.2 last
        exact ⟨found, by rw [outcome?, found]; rfl⟩
      unknown := by
        intro name h
        rw [outcome?, (missing name).2 h]
        rfl
      missing
      contains := by
        intro name
        rw [contains_iff, contexts]
        simp only [List.mem_map, exists_exists_and_eq_and]
        rfl
      names := by
        rw [names, contexts, List.map_map]
        rfl
      size := by rw [size, contexts, List.length_map]
      index := fun _ _ => mem_index_iff
      distinct := nodup_index _ }

/-- A later call without an outcome hides the success before it, and a name that was given is one
with the same name made from a position. -/
example :
    let get : Request := ⟨"GET", "https://a", none, [], none, [], [], none, none, none, none, none⟩
    let ok : Outcome := ⟨200, true, 0, none, none, none, none, []⟩
    let s := ofEntries [⟨{ get with name := some "request_3" }, some ok, 1⟩,
      ⟨{ get with name := some "b" }, some ok, 2⟩, ⟨{ get with name := some "" }, none, 3⟩]
    s.outcome? "request_3" = none ∧ s.index = [("request_3", 2), ("b", 1)] := by
  decide

end DotHttp.Store
