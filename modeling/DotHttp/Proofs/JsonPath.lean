import DotHttp.JsonPath
import DotHttp.Proofs.Json.Rereading

/-!
Paths one after the other. What a path leads to in a body is a text, and an object given as a text is a body
again: going on from there comes to the same as going the whole way at once.
-/

namespace DotHttp

namespace JsonPath

open DotHttp.Text

variable {body path : String} {names : List Symbols} {document value : Json}

theorem names?_eq (p : String) :
    names? ("$." ++ p) = some ((splitOn '.' p.toList).map Symbols.ofList) := by
  rw [names?, String.toList_append]
  rfl

theorem names?_append (p k : String) :
    names? ("$." ++ p ++ "." ++ k) =
      some ((splitOn '.' p.toList).map Symbols.ofList ++ (splitOn '.' k.toList).map Symbols.ofList) := by
  have points : (p ++ "." ++ k).toList = p.toList ++ '.' :: k.toList := by
    rw [String.toList_append, String.toList_append, List.append_assoc]
    rfl
  rw [String.append_assoc, String.append_assoc, names?_eq, ← String.append_assoc, points,
    splitOn_append, List.map_append]

/-- A path that goes on behind another one leads on from where that leads. -/
theorem follow_append (names more : List Symbols) (j : Json) :
    follow (names ++ more) j = (follow names j).bind (follow more) := by
  induction names generalizing j with
  | nil => rfl
  | cons name names ih =>
    cases j with
    | object fields =>
      rw [List.cons_append, follow, follow, Option.bind_assoc]
      congr 1
      funext v
      exact ih v
    | _ => rfl

theorem extract?_of_parse (named : names? path = some names)
    (parsed : Json.parse body.toList = .ok document) :
    extract? body path = (follow names document).map textOf := by
  rw [extract?, named, parsed]
  simp only [Except.toOption, Option.bind_eq_bind, Option.bind_some]
  cases follow names document <;> rfl

/-- What a path leads to in a document stays as it is with the document. -/
theorem lasting_follow (lasting : document.Lasting) (h : follow names document = some value) :
    value.Lasting := by
  induction names generalizing document with
  | nil =>
    cases h
    exact lasting
  | cons name names ih =>
    cases lasting with
    | object distinct wholes each =>
      obtain ⟨v, found, further⟩ := Option.bind_eq_some_iff.1 h
      obtain ⟨field, listed, rfl⟩ := Option.map_eq_some_iff.1 found
      exact ih (each field (List.mem_of_find?_eq_some listed)) further
    | _ => cases h

/-- Where a path leads in a body. -/
def Leads (body path : String) (value : Json) : Prop :=
  ∃ names document, names? path = some names ∧ Json.parse body.toList = .ok document ∧
    follow names document = some value

/-- A document with a value at the end of a path and nothing else. -/
def leadingTo (value : Json) (names : List Symbols) : Json :=
  names.foldr (fun name inner => .object [(name, inner)]) value

theorem follow_leadingTo (value : Json) (names : List Symbols) :
    follow names (leadingTo value names) = some value := by
  induction names with
  | nil => rfl
  | cons name names ih =>
    rw [leadingTo, List.foldr_cons, follow, Json.field?]
    simpa [leadingTo] using ih

theorem lasting_leadingTo {value : Json} {names : List Symbols} (lasting : value.Lasting)
    (whole : ∀ name ∈ names, name.Whole) : (leadingTo value names).Lasting := by
  induction names with
  | nil => exact lasting
  | cons name names ih =>
    obtain ⟨here, later⟩ := List.forall_mem_cons.1 whole
    refine .object (List.nodup_singleton _) ?_ ?_
    · exact List.forall_mem_singleton.2 here
    · exact List.forall_mem_singleton.2 (ih later)

/-- Every path leads to every value in some body. -/
theorem exists_leads (p : String) (lasting : value.Lasting) : ∃ body, Leads body ("$." ++ p) value := by
  let names := (splitOn '.' p.toList).map Symbols.ofList
  have whole : ∀ name ∈ names, name.Whole :=
    List.forall_mem_map.2 fun name _ => Symbols.whole_ofList name
  refine ⟨Json.compactText (leadingTo value names), names, leadingTo value names, names?_eq p, ?_,
    follow_leadingTo value names⟩
  rw [Json.compactText, String.toList_ofList]
  exact Json.parse_write Json.compact_spaced (lasting_leadingTo lasting whole)

/-- An object in a body is given as a text that is the object again, and any path goes on in it as it does in
the body. -/
theorem extract?_within {body p : String} {fields : List (Symbols × Json)}
    (whole : ∀ document, Json.parse body.toList = .ok document → document.Whole)
    (leads : Leads body ("$." ++ p) (.object fields)) :
    ∃ part, extract? body ("$." ++ p) = some part ∧ Json.parse part.toList = .ok (.object fields) ∧
      ∀ k, extract? body ("$." ++ p ++ "." ++ k) = extract? part ("$." ++ k) := by
  obtain ⟨names, document, named, parsed, found⟩ := leads
  have lasting := lasting_follow (Json.lasting_parse parsed (whole document parsed)) found
  have again : Json.parse (Json.compactText (.object fields)).toList = .ok (.object fields) := by
    rw [Json.compactText, String.toList_ofList]
    exact Json.parse_write Json.compact_spaced lasting
  refine ⟨Json.compactText (.object fields), ?_, again, ?_⟩
  · rw [extract?_of_parse named parsed, found]
    rfl
  · intro k
    cases (names?_eq p).symm.trans named
    rw [extract?_of_parse (names?_append p k) parsed, extract?_of_parse (names?_eq k) again,
      follow_append, found]
    rfl

/-- What stands behind `$.a` in a text where that name is given twice, with a path that goes on and one that
does not. -/
theorem extract?_within_nested :
    (∀ document, Json.parse Json.nestedText.toList = .ok document → document.Whole) ∧
      Leads Json.nestedText "$.a" (.object Json.nestedFields) ∧
        ∃ part, extract? Json.nestedText "$.a" = some part ∧
          extract? Json.nestedText "$.a.b.d" = extract? part "$.b.d" ∧
            extract? part "$.b.d" = some "[null,[],\x7b\x7d]" ∧
              extract? Json.nestedText "$.a.b.e" = extract? part "$.b.e" ∧
                extract? part "$.b.e" = none := by
  have whole (document : Json) (h : Json.parse Json.nestedText.toList = .ok document) :=
    Json.whole_nestedText h
  have leads : Leads Json.nestedText "$.a" (.object Json.nestedFields) :=
    ⟨[.ofString "a"], _, by decide +kernel, Json.parse_nestedText, rfl⟩
  obtain ⟨part, text, -, within⟩ := extract?_within (p := "a") whole leads
  have known : extract? Json.nestedText "$.a.b.d" = extract? part "$.b.d" := within "b.d"
  have missing : extract? Json.nestedText "$.a.b.e" = extract? part "$.b.e" := within "b.e"
  refine ⟨whole, leads, part, text, known, ?_, missing, ?_⟩
  · rw [← known]
    decide +kernel
  · rw [← missing]
    decide +kernel

end JsonPath

end DotHttp
