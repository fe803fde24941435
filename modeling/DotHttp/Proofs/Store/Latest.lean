import DotHttp.Store
import Mathlib.Data.List.Induction

/-!
The latest context of a name, said without a search: no context after it has that name. The index of
a store has each name once, with the place of this context, and looking a name up finds exactly this
one.
-/

namespace DotHttp

/-- Where no key comes twice, a look-up finds what is there. -/
theorem lookup_eq_some_iff_mem {α β : Type} [BEq α] [LawfulBEq α] {entries : List (α × β)}
    (nodup : (entries.map Prod.fst).Nodup) {key : α} {value : β} :
    entries.lookup key = some value ↔ (key, value) ∈ entries := by
  rw [List.lookup_eq_some_iff]
  constructor
  · rintro ⟨before, after, split, -⟩
    rw [split]
    exact List.mem_append_right _ List.mem_cons_self
  · intro among
    obtain ⟨before, after, split⟩ := List.append_of_mem among
    refine ⟨before, after, split, ?_⟩
    intro entry earlier
    rw [split, List.map_append, List.map_cons, List.nodup_append] at nodup
    have apart : entry.1 ≠ key := nodup.2.2 _ (List.mem_map_of_mem earlier) _ List.mem_cons_self
    exact bne_iff_ne.2 (Ne.symm apart)

namespace Store

/-- A context of a name that no context of the same name follows. -/
def Latest (s : Store) (name : String) (c : Context) : Prop :=
  c.name = name ∧ ∃ before after, s.contexts = before ++ c :: after ∧ ∀ d ∈ after, d.name ≠ name

/-- A place with a context of a name that no context of the same name follows. -/
def LatestAt (s : Store) (name : String) (place : Nat) : Prop :=
  ∃ before c after, s.contexts = before ++ c :: after ∧ before.length = place ∧ c.name = name ∧
    ∀ d ∈ after, d.name ≠ name

theorem lookup_cons (n name : String) (i : Nat) (rest : List (String × Nat)) :
    ((n, i) :: rest).lookup name = if name = n then some i else rest.lookup name := by
  rw [List.lookup_cons]
  split
  · next same => rw [if_pos (eq_of_beq same)]
  · next apart => rw [if_neg (ne_of_beq_false apart)]

theorem lookup_point (name other : String) (place : Nat) (known : List (String × Nat)) :
    (point name place known).lookup other =
      if other = name then some place else known.lookup other := by
  induction known with
  | nil => exact lookup_cons name other place []
  | cons entry rest ih =>
    obtain ⟨n, i⟩ := entry
    rw [point]
    split
    · next same =>
      subst same
      rw [lookup_cons, lookup_cons]
      split <;> rfl
    · next other_ =>
      rw [lookup_cons, lookup_cons, ih]
      split
      · next here => rw [if_neg (here ▸ other_)]
      · rfl

/-- A new name comes last in the index. -/
theorem keys_point (name : String) (place : Nat) (known : List (String × Nat)) :
    (point name place known).map Prod.fst =
      if name ∈ known.map Prod.fst then known.map Prod.fst else known.map Prod.fst ++ [name] := by
  induction known with
  | nil => rfl
  | cons entry rest ih =>
    obtain ⟨n, i⟩ := entry
    rw [point]
    split
    · next same => simp [same]
    · next other =>
      simp only [List.map_cons, List.mem_cons, or_iff_right (Ne.symm other), ih]
      split <;> rfl

theorem index_concat (cs : List Context) (c : Context) :
    index ⟨cs ++ [c]⟩ = point c.name cs.length (index ⟨cs⟩) := by
  simp [index, List.zipIdx_append]

/-- The index has every name once. -/
theorem nodup_index (s : Store) : (s.index.map Prod.fst).Nodup := by
  obtain ⟨cs⟩ := s
  induction cs using List.reverseRecOn with
  | nil => exact List.nodup_nil
  | append_singleton cs c ih =>
    rw [index_concat, keys_point]
    split
    · exact ih
    · next fresh =>
      refine List.nodup_append.2 ⟨ih, List.pairwise_singleton _ _, ?_⟩
      rintro n hn m hm rfl
      exact fresh (List.mem_singleton.1 hm ▸ hn)

theorem latestAt_concat (cs : List Context) (c : Context) (name : String) (place : Nat) :
    LatestAt ⟨cs ++ [c]⟩ name place ↔
      if name = c.name then place = cs.length else LatestAt ⟨cs⟩ name place := by
  unfold LatestAt
  dsimp only
  constructor
  · rintro ⟨before, d, after, split, rfl, rfl, last⟩
    rcases List.eq_nil_or_concat after with rfl | ⟨after, e, rfl⟩
    · obtain ⟨rfl, same⟩ := List.append_inj' split rfl
      cases same
      rw [if_pos rfl]
    · rw [List.concat_eq_append, ← List.cons_append, ← List.append_assoc] at split
      obtain ⟨rfl, same⟩ := List.append_inj' split rfl
      cases same
      rw [List.concat_eq_append, List.forall_mem_append] at last
      rw [if_neg (Ne.symm (last.2 c List.mem_cons_self))]
      exact ⟨before, d, after, rfl, rfl, rfl, last.1⟩
  · intro h
    split at h
    · next same =>
      exact ⟨cs, c, [], rfl, h.symm, same.symm, fun _ hd => (List.not_mem_nil hd).elim⟩
    · next other =>
      obtain ⟨before, d, after, rfl, rfl, rfl, last⟩ := h
      refine ⟨before, d, after ++ [c], by simp, rfl, rfl, ?_⟩
      exact List.forall_mem_append.2 ⟨last, List.forall_mem_singleton.2 (Ne.symm other)⟩

/-- The index knows just the latest place of each name. -/
theorem lookup_index_iff {s : Store} {name : String} {place : Nat} :
    s.index.lookup name = some place ↔ s.LatestAt name place := by
  obtain ⟨cs⟩ := s
  induction cs using List.reverseRecOn generalizing place with
  | nil =>
    refine iff_of_false nofun ?_
    rintro ⟨before, c, after, split, -⟩
    simp at split
  | append_singleton cs c ih =>
    rw [index_concat, lookup_point, latestAt_concat]
    split
    · rw [Option.some.injEq, eq_comm]
    · exact ih

theorem get?_eq_some_iff {s : Store} {name : String} {c : Context} :
    s.get? name = some c ↔ s.Latest name c := by
  simp only [get?, Option.bind_eq_some_iff, lookup_index_iff]
  constructor
  · rintro ⟨place, ⟨before, d, after, split, rfl, named, last⟩, found⟩
    obtain rfl : d = c := by simpa [split] using found
    exact ⟨named, before, after, split, last⟩
  · rintro ⟨named, before, after, split, last⟩
    exact ⟨before.length, ⟨before, c, after, split, rfl, named, last⟩, by simp [split]⟩

theorem mem_index_iff {s : Store} {name : String} {place : Nat} :
    (name, place) ∈ s.index ↔ s.LatestAt name place := by
  rw [← lookup_index_iff, lookup_eq_some_iff_mem s.nodup_index]

theorem contains_iff {s : Store} {name : String} :
    s.contains name = true ↔ ∃ c ∈ s.contexts, c.name = name := by
  obtain ⟨cs⟩ := s
  induction cs using List.reverseRecOn with
  | nil => simp [contains, index]
  | append_singleton cs c ih =>
    rw [contains, index_concat, lookup_point]
    simp only [List.mem_append, List.mem_singleton, or_and_right, exists_or, exists_eq_left]
    split
    · next same => exact iff_of_true rfl (.inr same.symm)
    · next other => rw [or_iff_left (Ne.symm other), ← ih, contains]

/-- What the index points at is there. -/
theorem get?_isSome (s : Store) (name : String) : (s.get? name).isSome = s.contains name := by
  rw [contains, get?]
  cases found : s.index.lookup name with
  | none => rfl
  | some place =>
    obtain ⟨before, c, after, split, rfl, -⟩ := lookup_index_iff.1 found
    simp [split]

theorem get?_eq_none_iff {s : Store} {name : String} :
    s.get? name = none ↔ ∀ c ∈ s.contexts, c.name ≠ name := by
  rw [← Option.not_isSome_iff_eq_none, get?_isSome, contains_iff]
  simp

theorem exists_outcome?_iff {s : Store} {name : String} {p : Outcome → Prop} :
    (∃ o, s.outcome? name = some o ∧ p o) ↔
      ∃ c o, s.Latest name c ∧ c.outcome = some o ∧ p o := by
  simp only [outcome?, Option.bind_eq_some_iff, get?_eq_some_iff]
  constructor
  · rintro ⟨o, ⟨c, hc, ho⟩, hp⟩
    exact ⟨c, o, hc, ho, hp⟩
  · rintro ⟨c, o, hc, ho, hp⟩
    exact ⟨o, ⟨c, hc, ho⟩, hp⟩

theorem Latest.outcome? {s : Store} {name : String} {c : Context} (h : s.Latest name c) :
    s.outcome? name = c.outcome := by
  rw [Store.outcome?, get?_eq_some_iff.2 h, Option.bind_some]

theorem Latest.getElem? {s : Store} {name : String} {c : Context} (h : s.Latest name c) :
    ∃ j < s.contexts.length, s.contexts[j]? = some c := by
  obtain ⟨-, before, after, h, -⟩ := h
  exact ⟨before.length, by simp [h], by simp [h]⟩

/-- Contexts of other names that are recorded later hide nothing. -/
theorem latest_append_iff {cs more : List Context} {name : String} {c : Context}
    (others : ∀ d ∈ more, d.name ≠ name) :
    Latest ⟨cs ++ more⟩ name c ↔ Latest ⟨cs⟩ name c := by
  constructor
  · rintro ⟨named, before, after, split, last⟩
    rcases List.append_eq_append_iff.1 split with ⟨between, -, rest⟩ | ⟨between, kept, rest⟩
    · exact (others c (by simp [rest]) named).elim
    · cases between with
      | nil =>
        have later : more = c :: after := rest.symm
        exact (others c (later ▸ List.mem_cons_self) named).elim
      | cons d between =>
        cases rest
        exact ⟨named, before, between, kept, (List.forall_mem_append.1 last).1⟩
  · rintro ⟨named, before, after, rfl, last⟩
    refine ⟨named, before, after ++ more, by simp, ?_⟩
    exact List.forall_mem_append.2 ⟨last, others⟩

end Store

end DotHttp
