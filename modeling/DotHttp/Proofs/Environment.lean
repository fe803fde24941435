import DotHttp.Proofs.Json.Distinct
import DotHttp.Proofs.Json.Overlong
import DotHttp.Proofs.Run.File
import DotHttp.Proofs.Text.Utf8

/-!
Environment files. A file is read to its environments, or it is refused with what is wrong with it and
no request is sent; but for a file in which a whole number has too many digits.
-/

namespace DotHttp.Environment

open DotHttp.Text

/-- Variables for the fields of an object, one for each. The fields have distinct names, and so have the
variables when each name has characters for all its symbols. -/
structure Lists (fields : List (Symbols × Json)) (vars : List Variable) : Prop where
  each : List.Forall₂ (fun field v => v.name = field.1.toString ∧ v.value = valueText field.2)
    fields vars
  distinct : (fields.map Prod.fst).Nodup
  names : (∀ field ∈ fields, field.1.Whole) → (vars.map (·.name)).Nodup

def isObject : Json → Bool
  | .object _ => true
  | _ => false

/-- Environments for those fields of a document that are objects, with their variables. -/
structure Contents (fields : List (Symbols × Json)) (envs : Environments) : Prop where
  each : List.Forall₂
    (fun field env => env.1 = field.1.toString ∧ ∃ own, field.2 = .object own ∧ Lists own env.2)
    (fields.filter (isObject ·.2)) envs
  distinct : (fields.map Prod.fst).Nodup

/-- What can be wrong with an environment file. -/
inductive Malformed (bytes : List UInt8) : EnvironmentFault → Prop
  | notText {e : Utf8Error} (undecoded : decodeUtf8 bytes = .error e) : Malformed bytes (.notText e)
  | malformed {text : List Char} {fault : Json.Fault} {place : Json.Place}
      (decoded : decodeUtf8 bytes = .ok text)
      (refused : Json.parse (unifyNewlines text) = .error (.malformed fault place)) :
      Malformed bytes (.malformed fault place)
  | notObject {text : List Char} {document : Json} (decoded : decodeUtf8 bytes = .ok text)
      (parsed : Json.parse (unifyNewlines text) = .ok document)
      (other : isObject document = false) : Malformed bytes .notObject

/-- An environment file comes to its contents, or to a report of what is wrong with it. -/
inductive Settles (path : String) (bytes : List UInt8) : Except Failure Environments → Prop
  | contents {text : List Char} {fields : List (Symbols × Json)} {envs : Environments}
      (decoded : decodeUtf8 bytes = .ok text)
      (parsed : Json.parse (unifyNewlines text) = .ok (.object fields))
      (contents : Contents fields envs) : Settles path bytes (.ok envs)
  | reported {fault : EnvironmentFault} (malformed : Malformed bytes fault) :
      Settles path bytes (.error (.environment path fault))

/-- A file with a whole number that has too many digits, where a value is due. -/
def Overlong (bytes : List UInt8) : Prop :=
  ∃ text, decodeUtf8 bytes = .ok text ∧ Json.Overlong (unifyNewlines text)

variable {tree : FileTree} {path requestFile : String} {loc : Location} {bytes : List UInt8}
  {fields : List (Symbols × Json)} {environment : Setting} {fault : EnvironmentFault} {f : Failure}

theorem lists_variablesOf (distinct : (fields.map Prod.fst).Nodup) :
    Lists fields (variablesOf fields) := by
  constructor
  · rw [variablesOf, List.forall₂_map_right_iff, List.forall₂_same]
    intro field _
    exact ⟨rfl, rfl⟩
  · exact distinct
  · intro whole
    have names : (variablesOf fields).map (·.name) =
        (fields.map Prod.fst).map Symbols.toString := by
      rw [variablesOf, List.map_map, List.map_map]
      rfl
    rw [names]
    apply Symbols.nodup_toString distinct
    intro name hn
    obtain ⟨field, hf, rfl⟩ := List.mem_map.1 hn
    exact whole field hf

theorem contents_ofJson? (h : (Json.object fields).Distinct) :
    ∃ envs, ofJson? (.object fields) = some envs ∧ Contents fields envs := by
  cases h with
  | object distinct each =>
    refine ⟨_, rfl, ?_, distinct⟩
    clear distinct
    induction fields with
    | nil => exact .nil
    | cons field fields ih =>
      obtain ⟨here, later⟩ := List.forall_mem_cons.1 each
      obtain ⟨name, value⟩ := field
      cases value with
      | object own =>
        cases here with
        | object distinct _ =>
          exact .cons ⟨rfl, own, rfl, lists_variablesOf distinct⟩ (ih later)
      | _ => exact ih later

theorem readBytes_of_look (there : tree.look path = .found loc (.file bytes)) :
    tree.readBytes path = .ok bytes := by
  have given : path ≠ "" := by
    rintro rfl
    unfold FileTree.look at there
    dsimp only at there
    split at there
    · next h =>
      rw [if_pos (by decide)] at there
      cases there
    · next other =>
      exact other _ _ there
  rw [FileTree.readBytes, if_neg given, there]

theorem parseFile_of_look (there : tree.look path = .found loc (.file bytes)) :
    parseFile tree path =
      match decodeUtf8 bytes with
      | .error e => .error (.environment path (.notText e))
      | .ok text => parseText path (String.ofList (unifyNewlines text)) := by
  rw [parseFile, FileTree.readText, readBytes_of_look there]
  dsimp only
  cases decodeUtf8 bytes <;> rfl

theorem parseFile_of_overlong (there : tree.look path = .found loc (.file bytes))
    (long : Overlong bytes) : parseFile tree path = .error (.defect .tooManyDigits) := by
  obtain ⟨text, decoded, long⟩ := long
  rw [parseFile_of_look there, decoded]
  dsimp only
  rw [parseText, String.toList_ofList, (Json.parse_tooManyDigits_iff _).2 long]

theorem parseFile_of_malformed (there : tree.look path = .found loc (.file bytes))
    (malformed : Malformed bytes fault) :
    parseFile tree path = .error (.environment path fault) := by
  rw [parseFile_of_look there]
  cases malformed with
  | notText undecoded => rw [undecoded]
  | malformed decoded refused =>
    rw [decoded]
    dsimp only
    rw [parseText, String.toList_ofList, refused]
  | @notObject text document decoded parsed other =>
    rw [decoded]
    dsimp only
    rw [parseText, String.toList_ofList, parsed]
    cases document with
    | object => cases other
    | _ => rfl

theorem settles_of_not_overlong (there : tree.look path = .found loc (.file bytes))
    (short : ¬ Overlong bytes) : Settles path bytes (parseFile tree path) := by
  cases decoded : decodeUtf8 bytes with
  | error e =>
    have malformed := Malformed.notText decoded
    rw [parseFile_of_malformed there malformed]
    exact .reported malformed
  | ok text =>
    cases parsed : Json.parse (unifyNewlines text) with
    | error err =>
      cases err with
      | malformed fault place =>
        have malformed := Malformed.malformed decoded parsed
        rw [parseFile_of_malformed there malformed]
        exact .reported malformed
      | tooManyDigits =>
        exact (short ⟨text, decoded, (Json.parse_tooManyDigits_iff _).1 parsed⟩).elim
    | ok document =>
      by_cases object : isObject document = true
      · cases document with
        | object fields =>
          obtain ⟨envs, found, contents⟩ := contents_ofJson? (Json.distinct_parse parsed)
          have read : parseFile tree path = .ok envs := by
            rw [parseFile_of_look there, decoded]
            dsimp only
            rw [parseText, String.toList_ofList, parsed]
            dsimp only
            rw [found]
          rw [read]
          exact .contents decoded parsed contents
        | _ => cases object
      · have malformed := Malformed.notObject decoded parsed (Bool.not_eq_true _ ▸ object)
        rw [parseFile_of_malformed there malformed]
        exact .reported malformed

/-- Every run of a request file ends in a failure before it sends anything or reports an event: in a
certain failure, unless the request file itself cannot be read. -/
def Forestalls (tree : FileTree) (requestFile : String) (environment : Setting) (f : Failure) : Prop :=
  ∀ {σ : Type} (host : Host σ) (config : RunConfig) (events : Option Nat) (s : Session σ),
    config.environment = environment → events ≠ some 0 →
      ∃ (failure : Failure) (ns : List Note), runFrom (Run.file tree host config events requestFile) s =
          (.error failure, s.add (ns.map .note)) ∧
        ∀ rs, (Run.load tree [] requestFile).1 = .ok rs → failure = f

theorem forestalls_of_load (h : load tree requestFile environment = (.error f, [])) :
    Forestalls tree requestFile environment f := by
  intro σ host config events s same some
  rw [Run.runFrom_file, if_neg some, Run.prepare]
  cases loaded : Run.load tree [] requestFile with
  | mk result ns =>
    cases result with
    | error failure =>
      refine ⟨failure, ns, rfl, ?_⟩
      intro rs read
      cases read
    | ok rs =>
      rw [same, h]
      refine ⟨f, ns, ?_, fun _ _ => rfl⟩
      dsimp only
      rw [List.append_nil]

theorem load_of_parseFile_error (selected : environment.isSet = true)
    (nearest : (find? tree requestFile).map tree.display = some path)
    (h : parseFile tree path = .error f) :
    load tree requestFile environment = (.error f, []) := by
  obtain ⟨loc, found, rfl⟩ := Option.map_eq_some_iff.1 nearest
  rw [load, found, selected]
  dsimp only
  rw [h]
  rfl

/-- An environment file settles unless a whole number in it has too many digits. One that is malformed
is reported as such, also to those who load an environment for a request file, and no run sends anything. -/
theorem parseFile_settles_iff (there : tree.look path = .found loc (.file bytes)) :
    (Settles path bytes (parseFile tree path) ↔ ¬ Overlong bytes) ∧
      ∀ fault, Malformed bytes fault →
        parseFile tree path = .error (.environment path fault) ∧
          ∀ requestFile environment, environment.isSet = true →
            (find? tree requestFile).map tree.display = some path →
              load tree requestFile environment = (.error (.environment path fault), []) ∧
                Forestalls tree requestFile environment (.environment path fault) := by
  constructor
  · constructor
    · intro settles long
      rw [parseFile_of_overlong there long] at settles
      cases settles
    · intro short
      exact settles_of_not_overlong there short
  · intro fault malformed
    have reported := parseFile_of_malformed there malformed
    refine ⟨reported, ?_⟩
    intro requestFile environment selected nearest
    have refused := load_of_parseFile_error selected nearest reported
    exact ⟨refused, forestalls_of_load refused⟩

section Examples

/-- Why a text is no document, if it is none. -/
def readError? (text : List Char) : Option Json.ReadError :=
  match Json.parse text with
  | .ok _ => none
  | .error e => some e

theorem parse_of_readError? {text : List Char} {e : Json.ReadError}
    (h : readError? text = some e) : Json.parse text = .error e := by
  unfold readError? at h
  split at h
  · cases h
  · cases h
    assumption

/-- A tree with an environment file beside a request file. -/
def beside (bytes : List UInt8) : FileTree :=
  ⟨[([fileName], .file bytes), (["a.http"], .file (asciiBytes "GET https://a\n".toList))], [], [], "",
    by simp [fileName]⟩

theorem look_beside (bytes : List UInt8) :
    (beside bytes).look "/http-client.env.json" = .found [fileName] (.file bytes) := by
  have start : (beside bytes).start "/http-client.env.json" = ([], [fileName]) := by
    change (beside []).start "/http-client.env.json" = ([], [fileName])
    decide +kernel
  have walk : (beside bytes).walk [] [fileName] = .found [fileName] (.file bytes) := rfl
  have named : FileTree.lastPiece "/http-client.env.json" = fileName.toList := by decide +kernel
  rw [FileTree.look, start]
  dsimp only
  rw [walk, named]
  rfl

/-- A document in which a variable is a whole number with a number of digits. -/
def numberText (digits : Nat) : List Char :=
  "\x7b\"dev\":\x7b\"n\":".toList ++ (List.replicate digits '1' ++ ['}', '}'])

theorem overlong_numberText {digits : Nat} (long : Numeral.maxDigits < digits) :
    Overlong (asciiBytes (numberText digits)) := by
  have opening : "\x7b\"dev\":\x7b\"n\":".toList.all isPlainByte = true := by decide +kernel
  have plain : (numberText digits).all isPlainByte = true := by
    rw [List.all_eq_true]
    intro c hc
    rcases List.mem_append.1 hc with among | hc
    · exact List.all_eq_true.1 opening c among
    · rcases List.mem_append.1 hc with one | among
      · rw [List.eq_of_mem_replicate one]
        rfl
      · exact List.all_eq_true.1 (by decide : ['}', '}'].all isPlainByte = true) c among
  obtain ⟨decoded, unified⟩ := reads_plain plain
  refine ⟨numberText digits, decoded, ?_⟩
  rw [unified]
  refine ⟨_, _, rfl, ?_, parse_of_readError? (by decide +kernel)⟩
  apply Json.beginsOverlong_of_digits
  · intro c hc
    rw [List.eq_of_mem_replicate hc]
    rfl
  · cases digits with
    | zero => cases long
    | succ digits =>
      rintro ⟨⟩
  · rwa [List.length_replicate]
  · rintro c ⟨⟩
    decide

/-- A file with a short number, one with a long number, and one that ends too soon. -/
theorem parseFile_settles_iff_each_way :
    let path := "/http-client.env.json"
    let settles := fun bytes => Settles path bytes (parseFile (beside bytes) path)
    let short := asciiBytes (numberText 3)
    let long := asciiBytes (numberText 4301)
    let unclosed := asciiBytes ['{']
    let fault := .malformed .expectingName ⟨1, 2, 1⟩
    ((beside short).look path = .found [fileName] (.file short) ∧ ¬ Overlong short ∧ settles short) ∧
      ((beside long).look path = .found [fileName] (.file long) ∧ Overlong long ∧ ¬ settles long) ∧
        (beside unclosed).look path = .found [fileName] (.file unclosed) ∧ Malformed unclosed fault ∧
          (Run.load (beside unclosed) [] "a.http").1.isOk = true ∧
            Forestalls (beside unclosed) "a.http" (.text "dev") (.environment path fault) := by
  intro path settles short long unclosed fault
  have inShort := look_beside short
  have inLong := look_beside long
  have inUnclosed := look_beside unclosed
  refine ⟨⟨inShort, ?_⟩, ⟨inLong, ?_⟩, inUnclosed, ?_⟩
  · have fits : ¬ Overlong short := by
      intro overlong
      have read : (parseFile (beside short) path).isOk = true := by decide +kernel
      rw [parseFile_of_overlong inShort overlong] at read
      cases read
    exact ⟨fits, (parseFile_settles_iff inShort).1.2 fits⟩
  · have overlong : Overlong long := overlong_numberText (by decide)
    exact ⟨overlong, fun settled => (parseFile_settles_iff inLong).1.1 settled overlong⟩
  · have decoded : decodeUtf8 unclosed = .ok ['{'] := (reads_plain (by decide)).1
    have malformed : Malformed unclosed fault :=
      .malformed decoded (parse_of_readError? (by decide +kernel))
    obtain ⟨-, reported⟩ := (parseFile_settles_iff inUnclosed).2 fault malformed
    exact ⟨malformed, by decide +kernel, (reported "a.http" (.text "dev") (by decide) rfl).2⟩

/-- A file whose only fault is a number with too many digits. -/
theorem long_number_escapes : ¬ ∀ (tree : FileTree) (path : String) (loc : Location)
    (bytes : List UInt8), tree.look path = .found loc (.file bytes) →
      Settles path bytes (parseFile tree path) := by
  intro settles
  have long := overlong_numberText (show Numeral.maxDigits < 4301 by decide)
  have there := look_beside (asciiBytes (numberText 4301))
  have settled := settles _ _ _ _ there
  rw [parseFile_of_overlong there long] at settled
  cases settled

end Examples

end DotHttp.Environment
