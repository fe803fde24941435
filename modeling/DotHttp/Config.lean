import DotHttp.Duration
import DotHttp.EnvFile
import DotHttp.Failure
import DotHttp.Yaml.Document

/-!
Configuration: which file is used, its defaults with references to the environment resolved, and the
settings that durations and the number of jobs are read from.
-/

namespace DotHttp.Config

open DotHttp.Text

/-- The files looked for in the working directory, in order. -/
def candidates : List String :=
  [".httprunner.yaml", ".httprunner.yml", "httprunner.yaml", "httprunner.yml"]

/-- The names of the file looked for in the home directory. -/
def homeNames : Location := [".httprunner", "config.yaml"]

/-- The first of some paths where something is, as an absolute path. It is the plain form of a path
that counts, so a slash at its end asks for no directory. -/
def firstExisting (tree : FileTree) (paths : List String) : Option String :=
  ((paths.map FileTree.plainPath).find? tree.pathExists).map fun p => tree.display (tree.resolve p)

/-- The configuration file to use. One that is named is used or nothing is. -/
def find (tree : FileTree) (named : Option String) : Option String :=
  match named.getD "" with
  | "" => firstExisting tree (candidates ++ [tree.display (tree.homeDirectory ++ homeNames)])
  | name => firstExisting tree [name]

/-- The defaults section, and the directory of the file. -/
structure Document where
  defaults : Setting
  directory : Option String

def Document.empty : Document := ⟨.mapping [], none⟩

/-- The defaults section of a document; one that is not set is empty. -/
def defaultsOf (entries : List (Setting × Setting)) : Setting :=
  match Setting.lookup entries "defaults" with
  | some d => if d.isSet then d else .mapping []
  | none => .mapping []

def parseText (path : String) (text : String) : Except Failure Setting :=
  match Yaml.parse text.toList with
  | .error .malformed => .error .configSyntax
  | .error .impossibleValue => .error (.defect .impossibleValue)
  | .error .tooLarge => .error (.defect .escapeTooLarge)
  | .ok document =>
    if !document.isSet then .ok (.mapping [])
    else
      match document with
      | .mapping entries => .ok (defaultsOf entries)
      | _ => .error (.configNotMapping path)

/-- Reads a configuration file; without one there are no defaults. -/
def load (tree : FileTree) (path : Option String) : Except Failure Document × List Note :=
  match path with
  | none => (.ok .empty, [])
  | some given =>
    let path := FileTree.plainPath given
    if !tree.pathExists path then (.ok .empty, [])
    else
      match tree.readText path with
      | .error (.file fault) => (.error (.file fault), [])
      | .error (.encoding _) => (.error (.defect .undecodable), [])
      | .ok text =>
        match parseText path text with
        | .error e => (.error e, [])
        | .ok defaults =>
          let directory := tree.display (tree.resolve path).dropLast
          (.ok ⟨defaults, some directory⟩, [.configLoaded path])

/-- The letters and digits of a variable name. -/
def isNameChar (c : Char) : Bool :=
  c.isAlphanum || c = '_'

/-- Reads a reference after its dollar sign: a name in braces, or a plain name. -/
def reference? (s : List Char) : Option (List Char × List Char) :=
  let braced :=
    match s with
    | '{' :: r =>
      match r.span (· != '}') with
      | (c :: name, _ :: rest) => some (c :: name, rest)
      | _ => none
    | _ => none
  match braced, s with
  | some found, _ => some found
  | none, c :: r =>
    if isNameChar c && !c.isDigit then
      some (c :: r.takeWhile isNameChar, r.dropWhile isNameChar)
    else none
  | none, [] => none

/-- Replaces references to known variables; others stay as they are. -/
def resolveChars (env : EnvFile.Bindings) : Nat → List Char → List Char
  | 0, s => s
  | _ + 1, [] => []
  | fuel + 1, c :: r =>
    if c = '$' then
      match reference? r with
      | some (name, rest) =>
        let written := c :: r.take (r.length - rest.length)
        let value := (env.lookup (String.ofList name)).map String.toList
        value.getD written ++ resolveChars env fuel rest
      | none => c :: resolveChars env fuel r
    else c :: resolveChars env fuel r

def resolveText (env : EnvFile.Bindings) (s : String) : String :=
  String.ofList (resolveChars env (s.length + 1) s.toList)

/-- Only texts have references. -/
def resolveValue (env : EnvFile.Bindings) : Setting → Setting
  | .text s => .text (resolveText env s)
  | x => x

/-- What a file of environment settings gives. -/
structure Surroundings where
  bindings : EnvFile.Bindings
  notes : List Note
  malformedLines : List Nat

/-- The environment, with the file that the defaults name put over it. -/
def surroundings (tree : FileTree) (around : EnvFile.Bindings) (envFile : Setting)
    (directory : String) : Except Failure Surroundings :=
  if !envFile.isSet then .ok ⟨around, [], []⟩
  else
    match envFile with
    | .text name =>
      let path := FileTree.join directory name
      match tree.look path with
      | .found _ (.file _) =>
        match tree.readText path with
        | .ok text =>
          let entries := EnvFile.entries text.toList
          .ok ⟨EnvFile.overlay around (EnvFile.settings around entries), [],
            EnvFile.malformedLines entries⟩
        | .error _ => .error (.defect .undecodable)
      | .found _ .directory => .ok ⟨around, [], []⟩
      | _ => .ok ⟨around, [.envFileMissing path], []⟩
    | _ => .error (.defect .wrongKind)

/-- Defaults with their references resolved. -/
structure Defaults where
  entries : List (Setting × Setting)
  notes : List Note
  malformedLines : List Nat

def resolve (tree : FileTree) (around : EnvFile.Bindings) (d : Document) :
    Except Failure Defaults :=
  match d.defaults with
  | .mapping entries => do
    let envFile := (Setting.lookup entries "env_file").getD .null
    let s ← surroundings tree around envFile (d.directory.getD ".")
    .ok ⟨entries.map fun (k, v) => (k, resolveValue s.bindings v), s.notes, s.malformedLines⟩
  | _ => .error (.defect .notMapping)

/-- The failure of a setting that is refused. One that cannot be written cannot be named either. -/
def refusal (key : String) (value : Setting) : Failure :=
  if value.isWritable then .invalidSetting key value else .defect .tooManyDigits

/-- A duration from a setting; a bare number counts `bare` milliseconds. -/
def duration (key : String) (value : Setting) (bare : Nat) : Except Failure (Option Nat) :=
  match value with
  | .null => .ok none
  | value =>
    if !value.isWritable then .error (.defect .tooManyDigits)
    else
      match Duration.read value.plainText.toList bare with
      | .error _ => .error (.defect .tooManyDigits)
      | .ok none => .error (refusal key value)
      | .ok (some n) => .ok (some n)

/-- The whole number that a setting stands for, if it stands for one. -/
def wholeNumber (value : Setting) : Except Failure (Option Int) :=
  match value with
  | .integer n => .ok (some n)
  | .text s => .ok (Numeral.readInt s.toList).toOption
  | .number (.infinite _) => .error (.defect .infiniteNumber)
  | .number x => .ok x.truncate?
  | _ => .ok none

/-- The number of files that run at a time, at least one. -/
def jobs (value : Setting) : Except Failure Nat :=
  match value with
  | .null => .ok 1
  | value => do
    match ← wholeNumber value with
    | some n => if 1 ≤ n then .ok n.toNat else .error (refusal "jobs" value)
    | none => .error (refusal "jobs" value)

end DotHttp.Config
