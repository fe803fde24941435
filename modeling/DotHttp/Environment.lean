import DotHttp.Failure

/-!
Environments: named sets of variables, kept in the nearest environment file above a request file.
-/

namespace DotHttp.Environment

def fileName : String := "http-client.env.json"

/-- The environments of a file, in order. -/
abbrev Environments := List (String × List Variable)

/-- The text of a value: a text as it is, null as nothing, any other value as compact JSON. -/
def valueText : Json → String
  | .string s => s.toString
  | .null => ""
  | j => Json.compactText j

def variablesOf (fields : List (Symbols × Json)) : List Variable :=
  fields.map fun (name, value) => ⟨name.toString, valueText value⟩

/-- The environments of a document: those fields that are objects. -/
def ofJson? : Json → Option Environments
  | .object fields => some <| fields.filterMap fun
    | (name, .object vars) => some (name.toString, variablesOf vars)
    | _ => none
  | _ => none

def parseText (path : String) (text : String) : Except Failure Environments :=
  match Json.parse text.toList with
  | .error (.malformed fault place) => .error (.environment path (.malformed fault place))
  | .error .tooManyDigits => .error (.defect .tooManyDigits)
  | .ok j =>
    match ofJson? j with
    | some envs => .ok envs
    | none => .error (.environment path .notObject)

def parseFile (tree : FileTree) (path : String) : Except Failure Environments :=
  match tree.readText path with
  | .error (.file fault) => .error (.file fault)
  | .error (.encoding e) => .error (.environment path (.notText e))
  | .ok text => parseText path text

/-- A location and those above it, the nearest first. -/
def upward (loc : Location) : List Location :=
  match loc with
  | [] => [[]]
  | name :: rest => (upward rest).map (name :: ·) ++ [[]]

/-- The environment file nearest to a request file, looked for in the directory of the file and
then in those above it. -/
def find? (tree : FileTree) (requestFile : String) : Option Location :=
  match (tree.resolve? requestFile).bind tree.directoryOf? with
  | none => none
  | some nearest =>
    (upward nearest).findSome? fun dir =>
      match tree.node? (dir ++ [fileName]) with
      | some (.file _) => some (dir ++ [fileName])
      | _ => none

/-- The variables of an environment, with notes. A setting that is no text names no environment. -/
def select (envs : Environments) (environment : Setting) (path : String) :
    Except Failure (List Variable) × List Note :=
  match environment with
  | .list _ | .mapping _ => (.error (.defect .wrongKind), [])
  | .text name =>
    match envs.lookup name with
    | some vars => (.ok vars, [.environmentLoaded vars.length name path])
    | none => (.ok [], [.environmentUndefined name path])
  | other => (.ok [], [.environmentUndefined other.plainText path])

/-- The variables of the selected environment for a request file; none when no environment is
selected, no file is found or the file does not have it. -/
def load (tree : FileTree) (requestFile : String) (environment : Setting) :
    Except Failure (List Variable) × List Note :=
  if !environment.isSet then (.ok [], [])
  else
    match find? tree requestFile with
    | none => (.ok [], [.noEnvironmentFile requestFile])
    | some loc =>
      let path := tree.display loc
      match parseFile tree path with
      | .error e => (.error e, [])
      | .ok envs => select envs environment path

end DotHttp.Environment
