import DotHttp.CommandLine.Arguments
import DotHttp.CommandLine.Help
import DotHttp.Config
import DotHttp.Export
import DotHttp.Report
import DotHttp.Text.Style

/-!
The command: it reads its configuration, collects the request files, runs them, shows the events and
a summary, and ends with a status. Status 0 says that no request failed and nothing was cancelled, 1
that something did or could not be read, and 2 that the arguments are wrong.
-/

namespace DotHttp.CommandLine

/-- Where notes go: to the console, all of them or only the warnings, and to a file, where a stamp
stands before each line. -/
structure Logging where
  verbose : Bool
  file : Option String
  stamp : String
  deriving DecidableEq, Repr

/-- The state that commands of one process share. -/
structure Machine (σ : Type) where
  tree : FileTree
  world : σ
  /-- The number of the next draw. -/
  next : Nat
  /-- Where the notes of the command before went. -/
  logging : Option Logging

/-- What a command does not change: the variables around it, the time in seconds, the stamp before the
lines of its log file, and whether its output and its errors are shown with styles, as on a terminal. -/
structure Surroundings where
  bindings : EnvFile.Bindings
  seconds : Int
  stamp : String
  styledOutput : Bool
  styledErrors : Bool

/-- What a command leaves: its status and what it wrote. -/
structure Ending where
  status : Nat
  output : String
  errors : String
  defect : Option Defect
  happenings : List Happening

/-- A command while it runs. -/
structure Progress (σ : Type) where
  machine : Machine σ
  output : List String
  errors : List String
  happenings : List Happening

/-- Why a command ends before its work is done. -/
inductive Stop where
  | failure (f : Failure)
  | status (n : Nat)

/-- Steps of a command keep what was written when one stops it. -/
abbrev Command (σ : Type) := ExceptT Stop (StateM (Progress σ))

variable {σ : Type}

def say (line : String) : Command σ Unit :=
  modify fun p => { p with output := p.output ++ [line] }

def complain (line : String) : Command σ Unit :=
  modify fun p => { p with errors := p.errors ++ [line] }

def fail (f : Failure) : Command σ α :=
  throw (.failure f)

def liftFailure : Except Failure α → Command σ α
  | .ok a => pure a
  | .error f => fail f

/-- A note as a line of a log file. -/
def logLine (stamp : String) (n : Note) : String :=
  stamp ++ n.level.word ++ " httprunner." ++ n.source ++ ": " ++ n.message ++ "\n"

/-- Appends a text to a file, which is made if it is missing. -/
def append (tree : FileTree) (path text : String) : Except FileTree.Fault FileTree :=
  match tree.readBytes path with
  | .ok bytes => tree.write path (bytes ++ text.toUTF8.toList)
  | .error (.notFound _) => tree.write path text.toUTF8.toList
  | .error fault => .error fault

def setTree (tree : FileTree) : Command σ Unit :=
  modify fun p => { p with machine := { p.machine with tree } }

/-- Appends notes to the log file, if there is one. -/
def logNotes (ns : List Note) : Command σ Unit := do
  let m := (← get).machine
  match m.logging with
  | some ⟨_, some path, stamp⟩ =>
    match append m.tree path (String.join (ns.map (logLine stamp))) with
    | .ok tree => setTree tree
    | .error _ => pure ()
  | _ => pure ()

/-- Notes made before this command says where its notes go: the log file of the command before gets
them, or without one the warnings are shown bare. -/
def noteEarly (ns : List Note) : Command σ Unit := do
  match (← get).machine.logging with
  | some _ => logNotes ns
  | none => (ns.filter (·.level = .warning)).forM (complain ·.message)

def present (logging : Logging) (pretty : Bool) : Happening → Command σ Unit
  | .note n => do
    if logging.verbose || n.level = .warning then complain (n.level.word ++ ": " ++ n.message)
    logNotes [n]
  | .event e => say (Report.event logging.verbose pretty e)
  | .report text => complain text
  | .pause _ | .send _ _ => pure ()

/-- An option of the command line, or else the configured default. -/
def pick (flag : Option Setting) (defaults : List (Setting × Setting)) (key : String) : Setting :=
  flag.getD ((Setting.lookup defaults key).getD .null)

def isOn (flag : Bool) (defaults : List (Setting × Setting)) (key : String) : Bool :=
  flag || ((Setting.lookup defaults key).getD .null).isSet

def textFlag (s : Option String) : Option Setting :=
  s.map .text

def natFlag (n : Option Nat) : Option Setting :=
  n.map fun n => .integer (Int.ofNat n)

/-- Opens the log file that is named, if one is. -/
def openLog (tree : FileTree) (name : Setting) : Except Failure (Option String × FileTree) :=
  if !name.isSet then .ok (none, tree)
  else
    match name with
    | .text name =>
      let path := tree.display (tree.resolve name)
      match append tree path "" with
      | .ok tree => .ok (some path, tree)
      | .error fault => .error (.file fault)
    | _ => .error (.defect .wrongKind)

/-- From here on the notes of this command go where its options say. -/
def setLogging (stamp : String) (verbose : Bool) (name : Setting) : Command σ Logging := do
  modify fun p => { p with machine := { p.machine with logging := some ⟨verbose, none, stamp⟩ } }
  let (file, tree) ← liftFailure (openLog (← get).machine.tree name)
  let logging : Logging := ⟨verbose, file, stamp⟩
  modify fun p => { p with machine := { p.machine with tree, logging := some logging } }
  pure logging

def configuration (around : Surroundings) (a : Arguments) :
    Command σ (List (Setting × Setting)) := do
  let tree := (← get).machine.tree
  let (document, ns) := Config.load tree (Config.find tree a.config)
  noteEarly ns
  let document ← liftFailure document
  let defaults ← liftFailure (Config.resolve tree around.bindings document)
  defaults.malformedLines.forM fun line =>
    complain s!"python-dotenv could not parse statement starting at line {line}"
  noteEarly defaults.notes
  pure defaults.entries

def runConfig (a : Arguments) (defaults : List (Setting × Setting)) :
    Except Failure RunConfig := do
  let delay ← Config.duration "delay" (pick (natFlag a.delay) defaults "delay") 1
  let timeout ← Config.duration "timeout" (pick (textFlag a.timeout) defaults "timeout") 1000
  let connectionTimeout ← Config.duration "connection_timeout"
    (pick (textFlag a.connectionTimeout) defaults "connection_timeout") 1000
  let jobs ← Config.jobs (pick (natFlag a.jobs) defaults "jobs")
  .ok {
    environment := pick (textFlag a.environment) defaults "environment"
    insecure := isOn a.insecure defaults "insecure"
    delay := delay.getD 0
    timeout
    connectionTimeout
    jobs }

def requestFileEnding : String := ".http"

/-- The request files to run: those named, and with discovery those found below the working
directory. Finding none ends the command at once. -/
def collectFiles (a : Arguments) : Command σ (List String) := do
  if !a.discover then pure a.files
  else
    match (← get).machine.tree.filesEndingIn requestFileEnding "." with
    | [] => do
      say "No .http files found in current directory and subdirectories"
      throw (.status 0)
    | found => do
      say s!"Found {found.length} .http file(s):"
      found.forM fun path => say ("  " ++ path)
      pure (a.files ++ found)

/-- Runs the request files and shows what happens. -/
def runFiles (host : Host σ) (config : RunConfig) (logging : Logging) (pretty : Bool)
    (paths : List String) : Command σ Results := do
  let m := (← get).machine
  let (result, session) :=
    (Run.files m.tree host config paths).run ⟨m.world, m.next, false, []⟩
  modify fun p => { p with
    machine := { p.machine with world := session.world, next := session.next }
    happenings := p.happenings ++ session.happenings }
  session.happenings.forM (present logging pretty)
  liftFailure result

def exportResults (around : Surroundings) (logging : Logging) (pretty : Bool)
    (directory : String) (r : Results) : Command σ Unit := do
  match Export.write (← get).machine.tree r directory around.seconds with
  | .error fault => fail (.file fault)
  | .ok (path, tree) => do
    setTree tree
    present logging pretty (.note (.exported path))
    say ("Results exported to " ++ path)

/-- What a command has settled before it runs anything. -/
structure Setup where
  logging : Logging
  pretty : Bool
  config : RunConfig
  paths : List String

/-- Reads the configuration, opens the log and collects the request files. -/
def setup (around : Surroundings) (a : Arguments) : Command σ Setup := do
  let defaults ← configuration around a
  let verbose := isOn a.verbose defaults "verbose"
  let pretty := isOn a.prettyJson defaults "pretty_json"
  let logging ← setLogging around.stamp verbose (pick (textFlag a.log) defaults "log_file")
  let config ← liftFailure (runConfig a defaults)
  let paths ← collectFiles a
  pure ⟨logging, pretty, config, paths⟩

/-- Runs the request files, sums up and exports; gives the status. -/
def conclude (host : Host σ) (around : Surroundings) (directory : String) (s : Setup) :
    Command σ Nat := do
  let results ← runFiles host s.config s.logging s.pretty s.paths
  say ""
  (Report.summary results).forM say
  if directory != "" then exportResults around s.logging s.pretty directory results
  pure (if !results.success || results.files.any (·.cancelled) then 1 else 0)

/-- The work of the command; gives its status. -/
def work (host : Host σ) (around : Surroundings) (a : Arguments) : Command σ Nat := do
  let s ← setup around a
  if s.paths.isEmpty then do
    say help
    pure 1
  else conclude host around (a.exportTo.getD "") s

def linesText (lines : List String) : String :=
  String.join (lines.map (· ++ "\n"))

def shown (styled : Bool) (line : String) : String :=
  if styled then line else line.unstyled

/-- The ending of a command that stops with a status or a failure. Notes are written as they are. -/
def ending (around : Surroundings) (p : Progress σ) (result : Except Stop Nat) : Ending :=
  let output := linesText (p.output.map (shown around.styledOutput))
  match result with
  | .ok n | .error (.status n) => ⟨n, output, linesText p.errors, none, p.happenings⟩
  | .error (.failure (.defect d)) => ⟨1, output, linesText p.errors, some d, p.happenings⟩
  | .error (.failure f) =>
    let reason := shown around.styledErrors ("ERROR: " ++ f.message)
    ⟨1, output, linesText (p.errors ++ [reason]), none, p.happenings⟩

/-- The ending of a command whose arguments are wrong. -/
def usageEnding (around : Surroundings) (fault : UsageFault) : Ending :=
  let head := if fault.showsUsage then [usage, usageHint, ""] else []
  let lines := (head ++ ["Error: " ++ fault.message]).map (shown around.styledErrors)
  ⟨2, "", linesText lines, none, []⟩

def invoke (host : Host σ) (around : Surroundings) (m : Machine σ) (args : List String) :
    Ending × Machine σ :=
  match parse m.tree args with
  | .error fault => (usageEnding around fault, m)
  | .ok .help => (⟨0, linesText [help], "", none, []⟩, m)
  | .ok (.run a) =>
    let (result, p) := (work host around a).run ⟨m, [], [], []⟩
    (ending around p result, p.machine)

end DotHttp.CommandLine
