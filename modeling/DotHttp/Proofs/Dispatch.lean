import DotHttp.Dispatch

/-!
The headers that go over the wire. Headers whose names agree up to letter case are one there, with all their
values, in the place and under the spelling of the first of them.
-/

namespace DotHttp.Dispatch

/-- The values of the headers with a name, up to letter case. -/
def valuesOf (name : String) (hs : List Header) : List String :=
  (hs.filter fun h => h.name.lowerCase = name.lowerCase).map Header.value

/-- The header at a place has this spelling of its name, and none before it has the name, up to letter case. -/
structure FirstAt (hs : List Header) (place : Nat) (name : String) : Prop where
  spelled : hs[place]?.map Header.name = some name
  fresh : ∀ h ∈ hs.take place, h.name.lowerCase ≠ name.lowerCase

/-- The names of some headers, up to letter case, in the order and under the spelling in which they first
occur. -/
structure Spellings (hs : List Header) (names : List String) : Prop where
  complete : ∀ h ∈ hs, ∃ n ∈ names, n.lowerCase = h.name.lowerCase
  first : ∀ n ∈ names, ∃ place, FirstAt hs place n
  ordered : names.Pairwise fun n n' => ∃ i j, i < j ∧ FirstAt hs i n ∧ FirstAt hs j n'

/-- Headers, and what is sent of them: each name with all its values. -/
structure Folded (hs : List Header) (sent : List (String × String)) : Prop where
  names : Spellings hs (sent.map Prod.fst)
  joined : ∀ e ∈ sent, e.2 = ", ".intercalate (valuesOf e.1 hs)

variable {hs : List Header} {sent before after : List (String × String)} {h : Header} {e : String × String}
  {place : Nat} {name value : String} {names : List String}

theorem addHeader_of_fresh (fresh : ∀ e ∈ sent, e.1.lowerCase ≠ name.lowerCase) :
    addHeader name value sent = sent ++ [(name, value)] := by
  induction sent with
  | nil => rfl
  | cons e sent ih =>
    obtain ⟨here, later⟩ := List.forall_mem_cons.1 fresh
    rw [addHeader, if_neg here, ih later, List.cons_append]

theorem addHeader_of_known (fresh : ∀ e ∈ before, e.1.lowerCase ≠ name.lowerCase)
    (known : e.1.lowerCase = name.lowerCase) :
    addHeader name value (before ++ e :: after) = before ++ (e.1, e.2 ++ ", " ++ value) :: after := by
  induction before with
  | nil => rw [List.nil_append, addHeader, if_pos known, List.nil_append]
  | cons d before ih =>
    obtain ⟨here, later⟩ := List.forall_mem_cons.1 fresh
    rw [List.cons_append, addHeader, if_neg here, ih later, List.cons_append]

theorem valuesOf_concat_of_ne (other : h.name.lowerCase ≠ name.lowerCase) :
    valuesOf name (hs ++ [h]) = valuesOf name hs := by
  simp [valuesOf, other]

theorem valuesOf_concat_of_eq (same : h.name.lowerCase = name.lowerCase) :
    valuesOf name (hs ++ [h]) = valuesOf name hs ++ [h.value] := by
  simp [valuesOf, same]

theorem valuesOf_of_fresh (fresh : ∀ h ∈ hs, h.name.lowerCase ≠ name.lowerCase) : valuesOf name hs = [] := by
  simpa [valuesOf] using fresh

namespace FirstAt

theorem getElem? (first : FirstAt hs place name) : ∃ h, hs[place]? = some h ∧ h.name = name :=
  Option.map_eq_some_iff.1 first.spelled

theorem lt (first : FirstAt hs place name) : place < hs.length := by
  obtain ⟨h, there, -⟩ := first.getElem?
  exact (List.getElem?_eq_some_iff.1 there).1

theorem append (first : FirstAt hs place name) (more : List Header) : FirstAt (hs ++ more) place name := by
  constructor
  · rw [List.getElem?_append_left first.lt]
    exact first.spelled
  · rw [List.take_append_of_le_length (Nat.le_of_lt first.lt)]
    exact first.fresh

theorem concat (fresh : ∀ g ∈ hs, g.name.lowerCase ≠ h.name.lowerCase) :
    FirstAt (hs ++ [h]) hs.length h.name := by
  constructor
  · simp
  · rwa [List.take_left]

theorem valuesOf_ne_nil (first : FirstAt hs place name) : valuesOf name hs ≠ [] := by
  obtain ⟨h, there, rfl⟩ := first.getElem?
  have among : h ∈ hs.filter fun g => g.name.lowerCase = h.name.lowerCase :=
    List.mem_filter.2 ⟨List.mem_of_getElem? there, decide_eq_true rfl⟩
  rw [valuesOf, Ne, List.map_eq_nil_iff]
  exact List.ne_nil_of_mem among

end FirstAt

namespace Spellings

/-- Of two names that first occur at different places the second is another one, up to letter case. -/
theorem distinct (h : Spellings hs names) : names.Pairwise fun n n' => n.lowerCase ≠ n'.lowerCase := by
  refine h.ordered.imp ?_
  rintro n n' ⟨i, j, less, first, second⟩
  obtain ⟨g, there, rfl⟩ := first.getElem?
  apply second.fresh g
  apply List.mem_of_getElem? (i := i)
  rw [List.getElem?_take_of_lt less, there]

theorem ordered_append (h : Spellings hs names) (more : List Header) :
    names.Pairwise fun n n' => ∃ i j, i < j ∧ FirstAt (hs ++ more) i n ∧ FirstAt (hs ++ more) j n' := by
  refine h.ordered.imp ?_
  rintro n n' ⟨i, j, less, first, second⟩
  exact ⟨i, j, less, first.append more, second.append more⟩

theorem add_known (spelt : Spellings hs names) (known : ∃ n ∈ names, n.lowerCase = h.name.lowerCase) :
    Spellings (hs ++ [h]) names where
  complete := by
    rw [List.forall_mem_append, List.forall_mem_singleton]
    exact ⟨spelt.complete, known⟩
  first n among := by
    obtain ⟨place, first⟩ := spelt.first n among
    exact ⟨place, first.append [h]⟩
  ordered := spelt.ordered_append [h]

theorem add_fresh (spelt : Spellings hs names) (fresh : ∀ g ∈ hs, g.name.lowerCase ≠ h.name.lowerCase) :
    Spellings (hs ++ [h]) (names ++ [h.name]) where
  complete := by
    rw [List.forall_mem_append, List.forall_mem_singleton]
    constructor
    · intro g among
      obtain ⟨n, there, same⟩ := spelt.complete g among
      exact ⟨n, List.mem_append_left _ there, same⟩
    · exact ⟨h.name, List.mem_append_right _ List.mem_cons_self, rfl⟩
  first := by
    rw [List.forall_mem_append, List.forall_mem_singleton]
    constructor
    · intro n among
      obtain ⟨place, first⟩ := spelt.first n among
      exact ⟨place, first.append [h]⟩
    · exact ⟨hs.length, .concat fresh⟩
  ordered := by
    rw [List.pairwise_append]
    refine ⟨spelt.ordered_append [h], List.pairwise_singleton _ _, ?_⟩
    intro n among n' last
    obtain ⟨place, first⟩ := spelt.first n among
    rw [List.mem_singleton.1 last]
    exact ⟨place, hs.length, first.lt, first.append [h], .concat fresh⟩

end Spellings

namespace Folded

theorem distinct (folded : Folded hs sent) : sent.Pairwise fun e e' => e.1.lowerCase ≠ e'.1.lowerCase := by
  have apart := folded.names.distinct
  rwa [List.pairwise_map] at apart

theorem fresh_of_entries (folded : Folded hs sent) (fresh : ∀ e ∈ sent, e.1.lowerCase ≠ name.lowerCase) :
    ∀ h ∈ hs, h.name.lowerCase ≠ name.lowerCase := by
  intro h among same
  obtain ⟨n, listed, alike⟩ := folded.names.complete h among
  obtain ⟨e, there, rfl⟩ := List.mem_map.1 listed
  exact fresh e there (alike.trans same)

/-- A value more stands behind those that its name has already. -/
theorem joined_concat (folded : Folded hs sent) (among : e ∈ sent) (same : h.name.lowerCase = e.1.lowerCase) :
    e.2 ++ ", " ++ h.value = ", ".intercalate (valuesOf e.1 (hs ++ [h])) := by
  obtain ⟨place, first⟩ := folded.names.first e.1 (List.mem_map_of_mem among)
  rw [valuesOf_concat_of_eq same, folded.joined e among,
    String.intercalate_append_of_ne_nil first.valuesOf_ne_nil (List.cons_ne_nil _ _), String.intercalate_singleton]

/-- A header more is put to the entry with its name, or else behind all entries. -/
theorem add (folded : Folded hs sent) (h : Header) :
    Folded (hs ++ [h]) (addHeader h.name h.value sent) := by
  have others : ∀ e ∈ sent, h.name.lowerCase ≠ e.1.lowerCase →
      e.2 = ", ".intercalate (valuesOf e.1 (hs ++ [h])) := by
    intro e among other
    rw [valuesOf_concat_of_ne other]
    exact folded.joined e among
  by_cases known : ∃ e ∈ sent, e.1.lowerCase = h.name.lowerCase
  case pos =>
    obtain ⟨e, among, same⟩ := known
    obtain ⟨before, after, rfl⟩ := List.append_of_mem among
    obtain ⟨-, apart, between⟩ := List.pairwise_append.1 folded.distinct
    have ahead : ∀ d ∈ before, d.1.lowerCase ≠ h.name.lowerCase := fun d there =>
      same ▸ between d there e List.mem_cons_self
    have behind : ∀ d ∈ after, d.1.lowerCase ≠ h.name.lowerCase := fun d there =>
      same ▸ (List.rel_of_pairwise_cons apart there).symm
    rw [addHeader_of_known ahead same]
    constructor
    case names =>
      have names : (before ++ (e.1, e.2 ++ ", " ++ h.value) :: after).map Prod.fst =
          (before ++ e :: after).map Prod.fst := by simp
      rw [names]
      exact folded.names.add_known ⟨e.1, List.mem_map_of_mem among, same⟩
    case joined =>
      rw [List.forall_mem_append, List.forall_mem_cons]
      refine ⟨?_, folded.joined_concat among same.symm, ?_⟩
      · intro d there
        exact others d (List.mem_append_left _ there) (ahead d there).symm
      · intro d there
        exact others d (List.mem_append_right _ (List.mem_cons_of_mem e there)) (behind d there).symm
  case neg =>
    have fresh : ∀ e ∈ sent, e.1.lowerCase ≠ h.name.lowerCase := by simpa using known
    have unknown := folded.fresh_of_entries fresh
    rw [addHeader_of_fresh fresh]
    constructor
    case names =>
      rw [List.map_append]
      exact folded.names.add_fresh unknown
    case joined =>
      rw [List.forall_mem_append, List.forall_mem_singleton]
      refine ⟨fun e among => others e among (fresh e among).symm, ?_⟩
      rw [valuesOf_concat_of_eq rfl, valuesOf_of_fresh unknown, List.nil_append, String.intercalate_singleton]

end Folded

theorem mergeHeaders_folded (hs : List Header) : Folded hs (mergeHeaders hs) := by
  have run : ∀ (more hs : List Header) (sent : List (String × String)), Folded hs sent →
      Folded (hs ++ more) (more.foldl (fun merged h => addHeader h.name h.value merged) sent) := by
    intro more
    induction more with
    | nil =>
      intro hs sent folded
      rwa [List.append_nil]
    | cons h more ih =>
      intro hs sent folded
      rw [List.append_cons]
      exact ih (hs ++ [h]) _ (folded.add h)
  exact run hs [] [] ⟨⟨List.forall_mem_nil _, List.forall_mem_nil _, .nil⟩, List.forall_mem_nil _⟩

/-- What is sent of the headers of a request: one entry for each name, up to letter case, in the order and under
the spelling in which the names first occur, with all values of the name in order. -/
theorem wireRequest_folds (r : Request) (insecure : Bool) :
    Folded r.headers (wireRequest r insecure).headers ∧
      (wireRequest r insecure).headers.Pairwise fun e e' => e.1.lowerCase ≠ e'.1.lowerCase := by
  have folded : Folded r.headers (wireRequest r insecure).headers := mergeHeaders_folded r.headers
  exact ⟨folded, folded.distinct⟩

example : mergeHeaders [⟨"Accept", "a"⟩, ⟨"X", "1"⟩, ⟨"accept", "b"⟩] = [("Accept", "a, b"), ("X", "1")] := by
  decide

end DotHttp.Dispatch
