import DotHttp.Proofs.Resolution.Missing
import DotHttp.Proofs.Store.Latest

/-!
References to requests without an outcome: such as were not reached or were skipped. Nothing is known of
an answer, but a skipped request is on record as it stands in its file, and a reference to the request
itself reads that.
-/

namespace DotHttp

/-- What a path leads to in a part of a request. -/
def Request.partValue? (r : Request) : Part → String → Option String
  | .headers, path => r.header? path
  | .body, path => Reference.bodyValue? r.body path

namespace Placeholder

theorem exists_chars {parts : List Segment} (h : parts.filterMap Segment.inner? = []) :
    ∃ s : List Char, parts = s.map .char := by
  induction parts with
  | nil => exact ⟨[], rfl⟩
  | cons part parts ih =>
    cases part with
    | placeholder inner => cases h
    | char c =>
      obtain ⟨s, rfl⟩ := ih h
      exact ⟨c :: s, rfl⟩

/-- A text with one placeholder is that placeholder with characters around it. -/
theorem exists_around {text : String} {inner : List Char} (h : inners text = [inner]) :
    ∃ before after : List Char, text.toList = before ++ written inner ++ after ∧
      segments text.toList = before.map .char ++ .placeholder inner :: after.map .char := by
  obtain ⟨parts, part, more, split, chars, found, rest⟩ := List.filterMap_eq_cons_iff.1 h
  obtain ⟨before, rfl⟩ := exists_chars (List.filterMap_eq_nil_iff.2 chars)
  obtain ⟨after, rfl⟩ := exists_chars rest
  cases part with
  | char c => cases found
  | placeholder inner' =>
    cases found
    refine ⟨before, after, ?_, split⟩
    have whole := flatMap_written_segments text.toList
    rw [split] at whole
    rw [← whole]
    simp [List.flatMap_map, Segment.written]

end Placeholder

namespace Reference

/-- What a reference to a request itself, and not to its answer, reads of the latest such request on
record. -/
def Recorded (store : Store) (ref : Reference) (value : String) : Prop :=
  ref.side = .request ∧
    ∃ c, store.Latest ref.requestName c ∧ c.request.partValue? ref.part ref.path = some value

/-- Without an outcome only the request itself can be read. -/
theorem value?_eq_some_iff_of_unanswered {store : Store} {ref : Reference}
    (unanswered : ∀ c, store.Latest ref.requestName c → c.outcome = none) (value : String) :
    ref.value? store = some value ↔ ref.Recorded store value := by
  simp only [value?, Recorded, Option.bind_eq_some_iff, Store.get?_eq_some_iff]
  cases hs : ref.side with
  | request => cases hp : ref.part <;> simp [Request.partValue?]
  | response =>
    refine iff_of_false ?_ (fun h => by cases h.1)
    rintro ⟨c, latest, known⟩
    rw [unanswered c latest] at known
    cases hp : ref.part <;> simp [hp] at known

end Reference

namespace Resolution

open DotHttp.Placeholder DotHttp.Reference

/-- A reference to a request without an outcome is refused, unless it is to the request itself and its path
leads to something there. Then this is put in place, as it was recorded. -/
theorem references_unanswered {store : Store} {text : String} {inner : List Char} {ref : Reference}
    (only : inners text = [inner]) (reads : parse? (String.ofList inner) = some ref)
    (unanswered : ∀ c, store.Latest ref.requestName c → c.outcome = none) (p : Progress) :
    ((runFrom (references store text) p).1 = .error (.unresolved (String.ofList (written inner))) ↔
      ¬ ∃ value, ref.Recorded store value) ∧
    ∀ value, ref.Recorded store value →
      ∃ before after, text.toList = before ++ written inner ++ after ∧
        (runFrom (references store text) p).1 = .ok (String.ofList (before ++ value.toList ++ after)) := by
  obtain ⟨before, after, around, split⟩ := exists_around only
  obtain ⟨ns, fills⟩ := runFrom_references store text
  have result : filled store text =
      (filledPart store (.placeholder inner)).map fun s => String.ofList (before ++ s ++ after) := by
    have literal := Template.filledParts_literal store after []
    rw [List.append_nil] at literal
    rw [filled, split, Template.filledParts_literal, filledParts, literal]
    cases filledPart store (.placeholder inner) <;> simp [filledParts, Except.map, bind, Except.bind]
  simp only [fills, result, filledPart, reads, ← value?_eq_some_iff_of_unanswered unanswered]
  constructor
  · cases ref.value? store <;> simp [Except.map]
  · intro value known
    rw [known]
    exact ⟨before, after, around, rfl⟩

/-- A request with a variable in its body. -/
def draftRequest : Request :=
  ⟨"POST", "https://a", some "a", [], some "\x7b\x7btoken\x7d\x7d", [], [], none, none, none, none, none⟩

/-- An answer that is on record is hidden when the request is skipped later. -/
theorem references_unanswered_after_answer :
    let answered := Store.empty.record draftRequest
      (some ⟨200, true, 0, none, none, none, some "1", []⟩) 1
    let store := answered.record draftRequest none 2
    (runFrom (references store "<\x7b\x7ba.response.body.*\x7d\x7d>") ⟨0, []⟩).1 =
      .error (.unresolved "\x7b\x7ba.response.body.*\x7d\x7d") := by
  intro answered store
  have reads : parse? (String.ofList "a.response.body.*".toList) =
      some ⟨"a.response.body.*", "a", .response, .body, "*"⟩ := by decide +kernel
  have latest : store.Latest "a" ⟨"a", draftRequest, none⟩ := by
    rw [← Store.get?_eq_some_iff]
    decide +kernel
  have unanswered : ∀ c, store.Latest "a" c → c.outcome = none := by
    intro c hc
    rw [← Store.get?_eq_some_iff] at latest hc
    cases latest.symm.trans hc
    rfl
  refine ((references_unanswered (by decide +kernel) reads unanswered ⟨0, []⟩).1).2 ?_
  rintro ⟨value, side, -⟩
  cases side

/-- What stands in a skipped request is copied without its variables put in. -/
theorem skipped_request_is_copied :
    let store := Store.empty.record draftRequest none 1
    let text := "<\x7b\x7ba.request.body.*\x7d\x7d>"
    store.outcome? "a" = none ∧ inners text = ["a.request.body.*".toList] ∧
      (runFrom (references store text) ⟨0, []⟩).1 = .ok "<\x7b\x7btoken\x7d\x7d>" := by
  decide +kernel

end Resolution

end DotHttp
