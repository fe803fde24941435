import DotHttp.Proofs.Json.Local
import Mathlib.Data.List.Nodup

/-!
Names of fields. An object that was read has each name once, however often the text gives it, and so has
every object inside of it. Names that have characters only differ as texts too.
-/

namespace DotHttp

namespace Symbols

/-- A text without a lone half of a surrogate pair. -/
def Whole (s : Symbols) : Prop :=
  ∀ x ∈ s, ∃ c, x = .char c

theorem whole_ofList (s : List Char) : (ofList s).Whole := by
  intro x hx
  obtain ⟨c, -, rfl⟩ := List.mem_map.1 hx
  exact ⟨c, rfl⟩

theorem whole_ofString (s : String) : (ofString s).Whole :=
  whole_ofList s.toList

theorem ofList_toList {s : Symbols} (h : s.Whole) : ofList s.toList = s := by
  rw [ofList, toList, List.map_map, List.map_congr_left, List.map_id]
  intro x hx
  obtain ⟨c, rfl⟩ := h x hx
  rfl

theorem toString_inj {s t : Symbols} (hs : s.Whole) (ht : t.Whole) (h : s.toString = t.toString) :
    s = t := by
  have same : s.toList = t.toList := String.ofList_injective h
  rw [← ofList_toList hs, ← ofList_toList ht, same]

theorem nodup_toString {names : List Symbols} (distinct : names.Nodup)
    (whole : ∀ name ∈ names, name.Whole) : (names.map toString).Nodup := by
  rw [List.nodup_map_iff_inj_on distinct]
  intro s hs t ht same
  exact toString_inj (whole s hs) (whole t ht) same

end Symbols

namespace Json

variable {name : Symbols} {value v : Json} {fields : List (Symbols × Json)} {s rest : List Char}

theorem mem_putField {field : Symbols × Json} (h : field ∈ putField name value fields) :
    field = (name, value) ∨ field ∈ fields := by
  induction fields with
  | nil =>
    left
    simpa [putField] using h
  | cons first fields ih =>
    obtain ⟨n, v⟩ := first
    rw [putField] at h
    split at h
    · next same =>
      subst same
      rcases List.mem_cons.1 h with rfl | later
      · exact .inl rfl
      · exact .inr (List.mem_cons_of_mem _ later)
    · rcases List.mem_cons.1 h with rfl | later
      · exact .inr List.mem_cons_self
      · rcases ih later with put | known
        · exact .inl put
        · exact .inr (List.mem_cons_of_mem _ known)

theorem nodup_putField (name : Symbols) (value : Json) (h : (fields.map Prod.fst).Nodup) :
    ((putField name value fields).map Prod.fst).Nodup := by
  induction fields with
  | nil => simp [putField]
  | cons first fields ih =>
    obtain ⟨n, v⟩ := first
    rw [putField]
    split
    · exact h
    · next other =>
      obtain ⟨fresh, distinct⟩ := List.nodup_cons.1 h
      rw [List.map_cons, List.nodup_cons]
      refine ⟨?_, ih distinct⟩
      intro again
      obtain ⟨field, put, named⟩ := List.mem_map.1 again
      rcases mem_putField put with rfl | known
      · exact other named.symm
      · exact fresh (List.mem_map.2 ⟨field, known, named⟩)

/-- The fields that are known, with others put to them. -/
def putAll (fields known : List (Symbols × Json)) : List (Symbols × Json) :=
  fields.foldl (fun known field => putField field.1 field.2 known) known

theorem putAll_spec (fields known : List (Symbols × Json))
    (distinct : (known.map Prod.fst).Nodup) : ((putAll fields known).map Prod.fst).Nodup ∧
      ∀ field ∈ putAll fields known, field ∈ known ∨ field ∈ fields := by
  induction fields generalizing known with
  | nil => exact ⟨distinct, fun field h => .inl h⟩
  | cons first fields ih =>
    obtain ⟨all, among⟩ := ih _ (nodup_putField first.1 first.2 distinct)
    refine ⟨all, ?_⟩
    intro field h
    rcases among field h with earlier | later
    · rcases mem_putField earlier with rfl | known
      · exact .inr List.mem_cons_self
      · exact .inl known
    · exact .inr (List.mem_cons_of_mem _ later)

/-- An object takes its fields from those that are given, each name once. -/
theorem ofFields_eq (fields : List (Symbols × Json)) : ∃ known, ofFields fields = .object known ∧
    (known.map Prod.fst).Nodup ∧ ∀ field ∈ known, field ∈ fields := by
  obtain ⟨distinct, among⟩ := putAll_spec fields [] List.nodup_nil
  refine ⟨putAll fields [], rfl, distinct, ?_⟩
  intro field h
  rcases among field h with none | given
  · cases none
  · exact given

/-- A document in which every object has each of its names once. -/
inductive Distinct : Json → Prop
  | null : Distinct .null
  | bool (b : Bool) : Distinct (.bool b)
  | integer (n : Int) : Distinct (.integer n)
  | number (x : Binary64) : Distinct (.number x)
  | string (s : Symbols) : Distinct (.string s)
  | array {items : List Json} (each : ∀ v ∈ items, Distinct v) : Distinct (.array items)
  | object {fields : List (Symbols × Json)} (distinct : (fields.map Prod.fst).Nodup)
      (each : ∀ field ∈ fields, Distinct field.2) : Distinct (.object fields)

theorem distinct_ofFields (h : ∀ field ∈ fields, Distinct field.2) : Distinct (ofFields fields) := by
  obtain ⟨known, same, distinct, among⟩ := ofFields_eq fields
  rw [same]
  apply Distinct.object distinct
  intro field hf
  exact h field (among field hf)

section Parts

variable {α : Type} {P : α → Prop} {close : Char} {part : List Char → Except Stop (α × List Char)}
  {more : List Char → Except Stop (List α × List Char)} {as : List α} {build : List α → Json}

theorem thenParts_forall (hpart : ∀ s a r, part s = .ok (a, r) → P a)
    (hmore : ∀ s as r, more s = .ok (as, r) → ∀ a ∈ as, P a)
    (h : thenParts close part more s = .ok (as, rest)) : ∀ a ∈ as, P a := by
  obtain ⟨⟨a, r⟩, first, further⟩ := bind_eq_ok_iff.1 h
  have here := hpart s a r first
  rcases afterPart_ok further with ⟨-, rfl⟩ | ⟨r', as', -, later, rfl⟩
  · exact List.forall_mem_singleton.2 here
  · exact List.forall_mem_cons.2 ⟨here, hmore _ as' rest later⟩

theorem inside_forall (hmore : ∀ s as r, more s = .ok (as, r) → ∀ a ∈ as, P a)
    (h : inside close build more s = .ok (v, rest)) : ∃ as, v = build as ∧ ∀ a ∈ as, P a := by
  rw [inside] at h
  split at h
  · cases h
    exact ⟨[], rfl, List.forall_mem_nil _⟩
  · obtain ⟨⟨as, r⟩, found, same⟩ := map_eq_ok_iff.1 h
    cases same
    exact ⟨as, rfl, hmore s as _ found⟩

end Parts

section Values

variable {P : Json → Prop}

theorem readField_forall {f : Nat} (hvalue : ∀ s v r, readValue f s = .ok (v, r) → P v)
    {field : Symbols × Json} (h : readField f s = .ok (field, rest)) : P field.2 := by
  unfold readField at h
  split at h
  · obtain ⟨⟨name, r⟩, -, valued⟩ := bind_eq_ok_iff.1 h
    dsimp only at valued
    unfold fieldValue at valued
    split at valued
    · obtain ⟨⟨value, r⟩, found, same⟩ := map_eq_ok_iff.1 valued
      cases same
      exact hvalue _ value rest found
    · cases valued
  · cases h

/-- What holds of values without parts, and of arrays and objects whose parts it holds of, holds of all that
is read. -/
theorem read_forall (scalar : ∀ v, Scalar v → P v) (string : ∀ s, P (.string s))
    (array : ∀ items : List Json, (∀ v ∈ items, P v) → P (.array items))
    (object : ∀ fields : List (Symbols × Json), (∀ field ∈ fields, P field.2) → P (ofFields fields))
    (f : Nat) :
    (∀ s v r, readValue f s = .ok (v, r) → P v) ∧
      (∀ s items r, readItems f s = .ok (items, r) → ∀ v ∈ items, P v) ∧
        ∀ s fields r, readFields f s = .ok (fields, r) → ∀ field ∈ fields, P field.2 := by
  induction f with
  | zero =>
    refine ⟨?_, ?_, ?_⟩
    · intro s v r h
      cases h
    · intro s items r h
      cases h
    · intro s fields r h
      cases h
  | succ f ih =>
    obtain ⟨value, items, fields⟩ := ih
    refine ⟨?_, ?_, ?_⟩
    · intro s v r h
      cases start s with
      | string s =>
        rw [readValue_string] at h
        obtain ⟨⟨text, _⟩, -, same⟩ := map_eq_ok_iff.1 h
        cases same
        exact string text
      | array s =>
        rw [readValue_array] at h
        obtain ⟨as, rfl, each⟩ := inside_forall items h
        exact array as each
      | object s =>
        rw [readValue_object] at h
        obtain ⟨as, rfl, each⟩ := inside_forall fields h
        exact object as each
      | plain plain =>
        rw [readValue_plain f plain] at h
        exact scalar v (scalar_of_readPlain h)
    · intro s items' r h
      rw [readItems_succ] at h
      exact thenParts_forall value items h
    · intro s fields' r h
      rw [readFields_succ] at h
      exact thenParts_forall (fun _ _ _ => readField_forall value) fields h

theorem parse_forall (scalar : ∀ v, Scalar v → P v) (string : ∀ s, P (.string s))
    (array : ∀ items : List Json, (∀ v ∈ items, P v) → P (.array items))
    (object : ∀ fields : List (Symbols × Json), (∀ field ∈ fields, P field.2) → P (ofFields fields))
    (h : parse s = .ok v) : P v := by
  obtain ⟨-, r, found, -⟩ := parse_eq_ok_iff.1 h
  exact (read_forall scalar string array object _).1 _ _ _ found

end Values

theorem distinct_scalar (h : Scalar v) : Distinct v := by
  cases h <;> constructor

theorem distinct_parse (h : parse s = .ok v) : Distinct v :=
  parse_forall (fun _ => distinct_scalar) .string (fun _ => .array) (fun _ => distinct_ofFields) h

end Json

end DotHttp
