import DotHttp.Report
import DotHttp.Proofs.Json.Rereading

/-!
Bodies as they are shown. An array or an object is laid out anew and keeps its data, in a form that is its
own however it came; any other text is shown as it is.
-/

namespace DotHttp

/-- Whether a value is an array or an object. -/
def Json.isCompound : Json → Bool
  | .array _ => true
  | .object _ => true
  | _ => false

namespace Report

variable {text : String} {document : Json}

theorem prettyJson_of_compound (parsed : Json.parse text.toList = .ok document)
    (compound : document.isCompound = true) : prettyJson text = Json.wideText document := by
  rw [prettyJson, parsed]
  cases document with
  | array items => rfl
  | object fields => rfl
  | _ => cases compound

theorem prettyJson_of_not_compound
    (h : ∀ document, Json.parse text.toList = .ok document → document.isCompound = false) :
    prettyJson text = text := by
  unfold prettyJson
  split
  · next items parsed => cases h _ parsed
  · next fields parsed => cases h _ parsed
  · rfl

theorem parse_wideText (parsed : Json.parse text.toList = .ok document) (whole : document.Whole) :
    Json.parse (Json.wideText document).toList = .ok document := by
  rw [Json.wideText, String.toList_ofList]
  exact Json.parse_write Json.wide_spaced (Json.lasting_parse parsed whole)

/-- An array or an object is read again from what is shown of it, and is shown alike from every text it is
read from; any other text is left as it is. What is shown once does not change when it is shown again. -/
theorem prettyJson_keeps
    (whole : ∀ document, Json.parse text.toList = .ok document → document.Whole) :
    prettyJson (prettyJson text) = prettyJson text ∧
      (∀ document, Json.parse text.toList = .ok document → document.isCompound = true →
        Json.parse (prettyJson text).toList = .ok document ∧
          ∀ other, Json.parse other.toList = .ok document → prettyJson other = prettyJson text) ∧
        ((∀ document, Json.parse text.toList = .ok document → document.isCompound = false) →
          prettyJson text = text) := by
  refine ⟨?_, ?_, prettyJson_of_not_compound⟩
  · by_cases compound : ∃ document, Json.parse text.toList = .ok document ∧ document.isCompound = true
    · obtain ⟨document, parsed, compound⟩ := compound
      have again := parse_wideText parsed (whole document parsed)
      rw [prettyJson_of_compound parsed compound, prettyJson_of_compound again compound]
    · have same : prettyJson text = text := by
        apply prettyJson_of_not_compound
        intro document parsed
        rw [Bool.eq_false_iff]
        exact fun h => compound ⟨document, parsed, h⟩
      rw [same, same]
  · intro document parsed compound
    have shown := prettyJson_of_compound parsed compound
    refine ⟨?_, ?_⟩
    · rw [shown]
      exact parse_wideText parsed (whole document parsed)
    · intro other parsed'
      rw [shown, prettyJson_of_compound parsed' compound]

/-- A text that is laid out anew: a name given twice stands once, a character of two units is escaped. -/
theorem prettyJson_keeps_nested :
    let shown := "\x7b\n  \"a\": \x7b\n    \"b\": \x7b\n      \"c\": \"\\ud834\\udd1e\\t\\\"\",\n" ++
      "      \"d\": [\n        null,\n        [],\n        \x7b\x7d\n      ]\n    \x7d\n  \x7d\n\x7d"
    (∀ document, Json.parse Json.nestedText.toList = .ok document → document.Whole) ∧
      prettyJson Json.nestedText = shown ∧ prettyJson shown = shown ∧
        Json.parse shown.toList = .ok (.object [(.ofString "a", .object Json.nestedFields)]) := by
  intro shown
  have whole (document : Json) (h : Json.parse Json.nestedText.toList = .ok document) :=
    Json.whole_nestedText h
  have out : prettyJson Json.nestedText = shown := by decide +kernel
  obtain ⟨steady, data, -⟩ := prettyJson_keeps whole
  obtain ⟨again, -⟩ := data _ Json.parse_nestedText rfl
  rw [out] at steady again
  exact ⟨whole, out, steady, again⟩

end Report

end DotHttp
