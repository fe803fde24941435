import DotHttp.Proofs.Numeral
import DotHttp.Proofs.RequestFile.Naming
import DotHttp.Proofs.Run.Bookkeeping

/-!
The names under which a run records its requests. A request without a name is recorded under one made from
its place, and nothing keeps a name that was given from being the same.
-/

namespace DotHttp.Run

variable {σ : Type} {host : Host σ} {insecure : Bool} {rs : List Request} {s₀ s : Session σ}
  {es : List Event}

/-- A request without a name, and one that was given the name made for it. -/
def Clash (rs : List Request) (i j : Nat) : Prop :=
  ∃ r r', rs[i]? = some r ∧ r.name = none ∧ rs[j]? = some r' ∧ r'.name = some s!"request_{i + 1}"

theorem madeName_injective {i j : Nat} (h : s!"request_{i + 1}" = s!"request_{j + 1}") : i = j := by
  have same : toString (i + 1) = toString (j + 1) := (String.append_right_inj _).1 h
  exact Nat.succ.inj (Numeral.toString_injective same)

/-- A name that was given once stands at one place. -/
theorem place_unique (distinct : (rs.filterMap (·.name)).Nodup) {i j : Nat} {r r' : Request}
    {name : String} (hi : rs[i]? = some r) (hj : rs[j]? = some r') (named : r.name = some name)
    (named' : r'.name = some name) : i = j := by
  rw [List.Nodup, List.pairwise_filterMap, List.pairwise_iff_getElem] at distinct
  obtain ⟨within, rfl⟩ := List.getElem?_eq_some_iff.1 hi
  obtain ⟨within', rfl⟩ := List.getElem?_eq_some_iff.1 hj
  rcases Nat.lt_trichotomy i j with lt | same | gt
  · exact (distinct i j within within' lt name named name named' rfl).elim
  · exact same
  · exact (distinct j i within' within gt name named' name named rfl).elim

/-- What an event was recorded under, by the request at its place. -/
theorem Reached.name {i : Nat} {e : Event} (h : Reached host insecure rs s₀ es s)
    (he : es[i]? = some e) : ∃ r, rs[i]? = some r ∧
      (∀ name, r.name = some name → name ≠ "" → e.name = name) ∧
      (r.name = none → e.name = s!"request_{i + 1}") := by
  obtain ⟨r, s₁, s₂, hr, passed⟩ := h.history he
  exact ⟨r, hr, passed.recorded.ownName, fun unnamed => passed.recorded.madeName (.inl unnamed)⟩

theorem Clash.ne {i j : Nat} (h : Clash rs i j) : i ≠ j := by
  rintro rfl
  obtain ⟨r, r', hr, unnamed, hr', named⟩ := h
  obtain rfl : r = r' := Option.some.inj (hr.symm.trans hr')
  rw [unnamed] at named
  cases named

/-- Two records come to have the same name only where a name that was given is one that is made. -/
theorem Reached.name_eq_iff (h : Reached host insecure rs s₀ es s)
    (distinct : (rs.filterMap (·.name)).Nodup) (nonempty : ∀ r ∈ rs, r.name ≠ some "") {i j : Nat}
    {d e : Event} (hd : es[i]? = some d) (he : es[j]? = some e) (apart : i ≠ j) :
    d.name = e.name ↔ Clash rs i j ∨ Clash rs j i := by
  have own {i : Nat} {r : Request} {name : String} (hr : rs[i]? = some r)
      (named : r.name = some name) : name ≠ "" := by
    rintro rfl
    exact nonempty r (List.mem_of_getElem? hr) named
  obtain ⟨r, hr, given, made⟩ := h.name hd
  obtain ⟨r', hr', given', made'⟩ := h.name he
  constructor
  · intro same
    cases hn : r.name with
    | none =>
      rw [made hn] at same
      cases hn' : r'.name with
      | none =>
        rw [made' hn'] at same
        exact absurd (madeName_injective same) apart
      | some name' =>
        rw [given' name' hn' (own hr' hn')] at same
        exact .inl ⟨r, r', hr, hn, hr', same ▸ hn'⟩
    | some name =>
      rw [given name hn (own hr hn)] at same
      cases hn' : r'.name with
      | none =>
        rw [made' hn'] at same
        exact .inr ⟨r', r, hr', hn', hr, same ▸ hn⟩
      | some name' =>
        rw [given' name' hn' (own hr' hn')] at same
        exact absurd (place_unique distinct hr hr' hn (same ▸ hn')) apart
  · rintro (⟨q, q', hq, unnamed, hq', named⟩ | ⟨q', q, hq', unnamed, hq, named⟩)
    · obtain rfl : r = q := Option.some.inj (hr.symm.trans hq)
      obtain rfl : r' = q' := Option.some.inj (hr'.symm.trans hq')
      exact (made unnamed).trans (given' _ named (own hr' named)).symm
    · obtain rfl : r = q := Option.some.inj (hr.symm.trans hq)
      obtain rfl : r' = q' := Option.some.inj (hr'.symm.trans hq')
      exact (given _ named (own hr named)).trans (made' unnamed).symm

theorem Reached.names_nodup_iff (h : Reached host insecure rs s₀ es s)
    (distinct : (rs.filterMap (·.name)).Nodup) (nonempty : ∀ r ∈ rs, r.name ≠ some "") :
    (Store.ofEvents es).names.Nodup ↔
      ¬ ∃ i j, i < es.length ∧ j < es.length ∧ Clash rs i j := by
  have names : (Store.ofEvents es).names = es.map (·.name) := List.map_map
  have same_iff {i j : Nat} (hi : i < es.length) (hj : j < es.length) (apart : i ≠ j) :
      es[i].name = es[j].name ↔ Clash rs i j ∨ Clash rs j i :=
    h.name_eq_iff distinct nonempty (List.getElem?_eq_getElem hi) (List.getElem?_eq_getElem hj) apart
  rw [names, List.Nodup, List.pairwise_map, List.pairwise_iff_getElem]
  constructor
  · rintro apart ⟨i, j, hi, hj, clash⟩
    rcases Nat.lt_or_gt_of_ne clash.ne with lt | gt
    · exact apart i j hi hj lt ((same_iff hi hj clash.ne).2 (.inl clash))
    · exact apart j i hj hi gt ((same_iff hj hi clash.ne.symm).2 (.inr clash))
  · intro unclashed i j hi hj lt same
    rcases (same_iff hi hj (Nat.ne_of_lt lt)).1 same with clash | clash
    · exact unclashed ⟨i, j, hi, hj, clash⟩
    · exact unclashed ⟨j, i, hj, hi, clash⟩

/-- Where no name comes twice, every context is found under its own. -/
theorem get?_of_names_nodup {k i : Nat} {e : Event} (distinct : (Store.ofEvents es).names.Nodup)
    (earlier : i < k) (he : es[i]? = some e) :
    (Store.ofEvents (es.take k)).get? e.name = some e.context := by
  have here : (es.take k)[i]? = some e := by rw [List.getElem?_take_of_lt earlier, he]
  obtain ⟨before, after, split⟩ := List.append_of_mem (List.mem_of_getElem? here)
  have names : (Store.ofEvents es).names = es.map (·.name) := List.map_map
  rw [names] at distinct
  have taken : ((es.take k).map (·.name)).Nodup :=
    distinct.sublist ((List.take_sublist k es).map _)
  rw [split, List.map_append, List.map_cons] at taken
  refine Store.get?_eq_some_iff.2 ⟨rfl, before.map Event.context, after.map Event.context, ?_, ?_⟩
  · rw [Store.ofEvents, split, List.map_append, List.map_cons]
  · rw [List.forall_mem_map]
    intro d hd same
    have fresh := (List.nodup_cons.1 (List.nodup_append.1 taken).2.1).1
    exact fresh (List.mem_map.2 ⟨d, hd, same⟩)

/-- A run over the requests of a file in which no name was given twice. None was noted, and the names that
the requests are recorded under are distinct, unless a name that was given is the one made for a request
without one. Where they are distinct every request that was recorded is found under its own name. -/
theorem requests_names_distinct {text : String} {known : List Variable} {parsed : RequestFile.Parsed}
    (h : RequestFile.parse known text = .ok parsed)
    (distinct : (parsed.requests.filterMap (·.name)).Nodup) (host : Host σ) (config : RunConfig)
    (vars : List Variable) (events : Option Nat) (filename : String) (s : Session σ) :
    (∀ name line, .duplicateName name line ∉ parsed.notes) ∧
    ∃ hs es, (runFrom (requests host config vars events filename parsed.requests) s).2.happenings =
        s.happenings ++ hs ∧ Happening.events hs = es ∧
      (∀ run, (runFrom (requests host config vars events filename parsed.requests) s).1 =
        .ok (some run) → run.store = .ofEvents es) ∧
      ((Store.ofEvents es).names.Nodup ↔
        ¬ ∃ i j, i < es.length ∧ j < es.length ∧ Clash parsed.requests i j) ∧
      ((Store.ofEvents es).names.Nodup → ∀ k i e, i < k → es[i]? = some e →
        (Store.ofEvents (es.take k)).get? e.name = some e.context) := by
  obtain ⟨es, s₁, hs, reached, stopped, happened, rfl, -⟩ := requests_stops
    (Prod.eta (runFrom (requests host config vars events filename parsed.requests) s)).symm
  have nonempty : ∀ r ∈ parsed.requests, r.name ≠ some "" := by
    intro r hr named
    exact (RequestFile.trimmed_of_named h hr named).nonempty rfl
  refine ⟨(RequestFile.nodup_names_iff h).1 distinct, hs, _, happened, rfl, ?_,
    reached.names_nodup_iff distinct nonempty, fun apart _ _ _ => get?_of_names_nodup apart⟩
  intro run ended
  rw [ended] at stopped
  exact congrArg Store.mk stopped.contexts

/-- A file with a request of a name and one without. -/
def pairText (name : String) : String :=
  "# @name " ++ name ++ "\nGET https://a\n\n###\nGET https://b\n"

def pair (name : String) : List Request :=
  [⟨"GET", "https://a", some name, [], none, [], [], none, none, none, none, none⟩,
    ⟨"GET", "https://b", none, [], none, [], [], none, none, none, none, none⟩]

/-- The name of the first request is the one that would have been made for it. -/
theorem requests_names_distinct_pair :
    let ending := runFrom (requests ((Script.ofStatuses [200, 500]).host fun _ => true) .default []
      none "a.http" (pair "request_1")) .fresh
    RequestFile.parse [] (pairText "request_1") = .ok ⟨pair "request_1", []⟩ ∧
      ((pair "request_1").filterMap (·.name)).Nodup ∧
      ∃ es, Happening.events ending.2.happenings = es ∧ es.length = 2 ∧
        (Store.ofEvents es).names.Nodup := by
  intro ending
  have parsed : RequestFile.parse [] (pairText "request_1") = .ok ⟨pair "request_1", []⟩ := by
    decide +kernel
  have distinct : ((pair "request_1").filterMap (·.name)).Nodup := by decide
  obtain ⟨-, hs, es, happened, rfl, -, apart, -⟩ := requests_names_distinct parsed distinct
    ((Script.ofStatuses [200, 500]).host fun _ => true) .default [] none "a.http" .fresh
  obtain rfl : ending.2.happenings = hs := happened
  have length : (Happening.events ending.2.happenings).length = 2 := by decide +kernel
  refine ⟨parsed, distinct, _, rfl, length, apart.2 ?_⟩
  rintro ⟨i, j, hi, hj, r, r', hr, unnamed, hr', named⟩
  rw [length] at hi hj
  have clear : ∀ i < 2, ∀ j < 2, ∀ r ∈ (pair "request_1")[i]?, r.name = none →
      ∀ r' ∈ (pair "request_1")[j]?, r'.name ≠ some s!"request_{i + 1}" := by decide
  exact clear i hi j hj r hr unnamed r' hr' named

/-- A name that was given once is the one made for the next request, whose failure takes the place of the
answer. -/
theorem requests_names_repeated : ¬ ∀ (text : String) (parsed : RequestFile.Parsed) (run : FileRun)
    (s' : Session Dialogue), RequestFile.parse [] text = .ok parsed →
      (parsed.requests.filterMap (·.name)).Nodup →
      runFrom (requests ((Script.ofStatuses [200, 500]).host fun _ => true) .default [] none "a.http"
        parsed.requests) .fresh = (.ok (some run), s') →
      run.store.names.Nodup := by
  intro apart
  obtain ⟨run, s', ends, names⟩ := exists_of_endsWith
    (show endsWith (runFrom (requests ((Script.ofStatuses [200, 500]).host fun _ => true) .default []
        none "a.http" (pair "request_2")) .fresh)
      (fun run => run.store.names = ["request_2", "request_2"]) = true by decide +kernel)
  have parsed : RequestFile.parse [] (pairText "request_2") = .ok ⟨pair "request_2", []⟩ := by
    decide +kernel
  have nodup := apart _ _ run s' parsed (by decide) ends
  rw [of_decide_eq_true names] at nodup
  exact absurd nodup (by decide)

end DotHttp.Run
