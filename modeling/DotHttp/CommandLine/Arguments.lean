import DotHttp.FileTree
import DotHttp.Number.Numeral
import DotHttp.Text.Similarity

/-!
The arguments of the command. Options may stand before, between and after the files; two hyphens end
the options. A long option takes its value after an equals sign or as the next argument; letters of
short options may stand together.
-/

namespace DotHttp.CommandLine

open DotHttp.Text

/-- The options of the command. -/
inductive Key where
  | config
  | environment
  | insecure
  | verbose
  | prettyJson
  | log
  | delay
  | timeout
  | connectionTimeout
  | discover
  | jobs
  | exportTo
  | help
  deriving DecidableEq, Repr

/-- An option with its long name, its letter if it has one, and whether it takes a value. -/
structure OptionSpec where
  key : Key
  long : String
  letter : Option Char
  takesValue : Bool
  deriving DecidableEq, Repr

def options : List OptionSpec := [
  ⟨.config, "--config", some 'c', true⟩,
  ⟨.environment, "--env", none, true⟩,
  ⟨.insecure, "--insecure", none, false⟩,
  ⟨.verbose, "--verbose", some 'v', false⟩,
  ⟨.prettyJson, "--pretty-json", none, false⟩,
  ⟨.log, "--log", none, true⟩,
  ⟨.delay, "--delay", none, true⟩,
  ⟨.timeout, "--timeout", none, true⟩,
  ⟨.connectionTimeout, "--connection-timeout", none, true⟩,
  ⟨.discover, "--discover", none, false⟩,
  ⟨.jobs, "--jobs", none, true⟩,
  ⟨.exportTo, "--export", none, true⟩,
  ⟨.help, "--help", none, false⟩]

/-- What is wrong with the arguments. -/
inductive UsageFault where
  | noSuchOption (name : String) (similar : List String)
  | valueMissing (name : String)
  | valueNotTaken (name : String)
  | notInteger (name value : String)
  | belowRange (name : String) (value : Int) (least : Nat)
  | isDirectory (path : String)
  deriving DecidableEq, Repr

/-- The command as its arguments state it. -/
structure Arguments where
  files : List String
  config : Option String
  environment : Option String
  insecure : Bool
  verbose : Bool
  prettyJson : Bool
  log : Option String
  delay : Option Nat
  timeout : Option String
  connectionTimeout : Option String
  discover : Bool
  jobs : Option Nat
  exportTo : Option String
  deriving DecidableEq, Repr

def Arguments.none : Arguments :=
  ⟨[], .none, .none, false, false, false, .none, .none, .none, .none, false, .none, .none⟩

/-- The command that is asked for. -/
inductive Invocation where
  | run (arguments : Arguments)
  | help
  deriving DecidableEq, Repr

/-- The options and files of a command line, in order. -/
structure Given where
  options : List (Key × String)
  files : List String
  deriving DecidableEq, Repr

def Given.add (g : Given) (key : Key) (value : String) : Given :=
  { g with options := g.options ++ [(key, value)] }

def long? (name : List Char) : Option OptionSpec :=
  options.find? fun o => o.long.toList = name

def letter? (c : Char) : Option OptionSpec :=
  options.find? fun o => o.letter = some c

def noSuchLong (name : List Char) : UsageFault :=
  .noSuchOption (String.ofList name)
    ((closest name (options.map fun o => o.long.toList)).map String.ofList)

/-- The value of an option: the text attached to it, or else the next argument. -/
def takeValue (name : String) (attached : Option String) (rest : List String) :
    Except UsageFault (String × List String) :=
  match attached, rest with
  | some v, rest => .ok (v, rest)
  | .none, v :: rest => .ok (v, rest)
  | .none, [] => .error (.valueMissing name)

def readLong (o : OptionSpec) (attached : Option String) (rest : List String) (g : Given) :
    Except UsageFault (Given × List String) :=
  if o.takesValue then do
    let (v, rest) ← takeValue o.long attached rest
    .ok (g.add o.key v, rest)
  else
    match attached with
    | some _ => .error (.valueNotTaken o.long)
    | .none => .ok (g.add o.key "", rest)

/-- Reads the letters of short options. What follows the letter of an option with a value is the
value. -/
def readLetters : List Char → List String → Given → Except UsageFault (Given × List String)
  | [], rest, g => .ok (g, rest)
  | c :: cs, rest, g =>
    match letter? c with
    | .none => .error (.noSuchOption (String.ofList ['-', c]) [])
    | some o =>
      if o.takesValue then do
        let attached := if cs.isEmpty then Option.none else some (String.ofList cs)
        let (v, rest) ← takeValue (String.ofList ['-', c]) attached rest
        .ok (g.add o.key v, rest)
      else readLetters cs rest (g.add o.key "")

/-- Reads one argument that begins with a hyphen. -/
def readOption (arg : List Char) (rest : List String) (g : Given) :
    Except UsageFault (Given × List String) :=
  let (name, attached) :=
    match splitFirst '=' arg with
    | some (name, v) => (name, some (String.ofList v))
    | .none => (arg, Option.none)
  match long? name with
  | some o => readLong o attached rest g
  | .none =>
    if ['-', '-'].isPrefixOf arg then .error (noSuchLong name)
    else readLetters (arg.drop 1) rest g

/-- Reads all arguments; each uses one unit of fuel. -/
def readAll : Nat → List String → Given → Except UsageFault Given
  | 0, _, g => .ok g
  | _ + 1, [], g => .ok g
  | fuel + 1, arg :: rest, g =>
    match arg.toList with
    | ['-', '-'] => .ok { g with files := g.files ++ rest }
    | '-' :: c :: cs => do
      let (g, rest) ← readOption ('-' :: c :: cs) rest g
      readAll fuel rest g
    | _ => readAll fuel rest { g with files := g.files ++ [arg] }

/-- A whole number that is not too small. -/
def ranged (name : String) (least : Nat) (value : String) : Except UsageFault Nat :=
  match Numeral.readInt value.toList with
  | .error _ => .error (.notInteger name value)
  | .ok n => if (least : Int) ≤ n then .ok n.toNat else .error (.belowRange name n least)

def Arguments.set (a : Arguments) (key : Key) (value : String) : Except UsageFault Arguments :=
  match key with
  | .config => .ok { a with config := some value }
  | .environment => .ok { a with environment := some value }
  | .insecure => .ok { a with insecure := true }
  | .verbose => .ok { a with verbose := true }
  | .prettyJson => .ok { a with prettyJson := true }
  | .log => .ok { a with log := some value }
  | .delay => do
    let n ← ranged "--delay" 0 value
    .ok { a with delay := some n }
  | .timeout => .ok { a with timeout := some value }
  | .connectionTimeout => .ok { a with connectionTimeout := some value }
  | .discover => .ok { a with discover := true }
  | .jobs => do
    let n ← ranged "--jobs" 1 value
    .ok { a with jobs := some n }
  | .exportTo => .ok { a with exportTo := some value }
  | .help => .ok a

/-- The last value of each option, in the order in which the options first stand. -/
def lastValues (given : List (Key × String)) : List (Key × String) :=
  given.foldl (fun known (k, v) =>
    if known.any fun (l, _) => l = k then known.map fun (l, w) => (l, if l = k then v else w)
    else known ++ [(k, v)]) []

def setAll : List (Key × String) → Arguments → Except UsageFault Arguments
  | [], a => .ok a
  | (k, v) :: rest, a => do
    let a ← a.set k v
    setAll rest a

/-- Files must not be directories. -/
def checkFiles (tree : FileTree) : List String → Except UsageFault Unit
  | [] => .ok ()
  | path :: rest =>
    match if path = "" then FileTree.Walk.notFound else tree.look path with
    | .found _ .directory => .error (.isDirectory path)
    | _ => checkFiles tree rest

/-- Reads a command line. Help is given before any value is looked at. -/
def parse (tree : FileTree) (args : List String) : Except UsageFault Invocation := do
  let g ← readAll (args.length + 1) args ⟨[], []⟩
  if g.options.any fun (k, _) => k = .help then .ok .help
  else
    let a ← setAll (lastValues g.options) .none
    checkFiles tree g.files
    .ok (.run { a with files := g.files })

namespace UsageFault

def suggestion : List String → String
  | [] => ""
  | [one] => s!" Did you mean {one.quotedForm}?"
  | several =>
    let names := ", ".intercalate ((several.mergeSort FileTree.nameLe).map String.quotedForm)
    s!" (Did you mean one of: {names}?)"

def message : UsageFault → String
  | noSuchOption name similar => s!"No such option {name.quotedForm}." ++ suggestion similar
  | valueMissing name => s!"Option {name.quotedForm} requires an argument."
  | valueNotTaken name => s!"Option {name.quotedForm} does not take a value."
  | notInteger name value =>
    s!"Invalid value for '{name}': {value.quotedForm} is not a valid integer range."
  | belowRange name value least =>
    s!"Invalid value for '{name}': {value} is not in the range x>={least}."
  | isDirectory path =>
    s!"Invalid value for '[FILES]...': File {path.quotedForm} is a directory."

/-- Whether the usage is shown with the message. -/
def showsUsage : UsageFault → Bool
  | valueMissing _ | valueNotTaken _ => false
  | _ => true

end UsageFault

end DotHttp.CommandLine
