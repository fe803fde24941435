import DotHttp.Assertion
import DotHttp.Environment

/-!
Runs. The requests of a file are processed strictly in order, because later ones read what earlier
ones recorded: first the dependency and the conditions, then resolution, the pause before, dispatch,
assertions, the pause after, and the record. A request that is skipped is recorded without an
outcome and never sent. Cancellation is looked at between requests only.
-/

namespace DotHttp

/-- What became of one request of a file. -/
structure Event where
  index : Nat
  total : Nat
  name : String
  request : Request
  status : Status
  outcome : Option Outcome
  reason : Option String
  deriving DecidableEq, Repr

/-- What happens during a run, one thing after the other. -/
inductive Happening where
  | note (note : Note)
  | pause (milliseconds : Nat)
  | send (request : Request) (insecure : Bool)
  /-- A message of the transport while it sends. -/
  | report (text : String)
  | event (event : Event)
  deriving DecidableEq, Repr

/-- What a transport says while it sends. It neither sends for the run nor reports its events. -/
inductive Remark where
  | note (note : Note)
  | report (text : String)
  deriving DecidableEq, Repr

def Remark.happening : Remark → Happening
  | .note n => .note n
  | .report text => .report text

structure Reply where
  outcome : Except TransportFault Outcome
  /-- What it said while the request was sent. -/
  remarks : List Remark
  /-- Whether cancellation was asked for meanwhile. -/
  cancels : Bool

/-- The surroundings of a run, with a state of their own. -/
structure Host (σ : Type) where
  sources : Sources
  send : Request → Bool → σ → Reply × σ
  /-- Takes an event; the answer `false` asks for cancellation. -/
  observe : Event → σ → Bool × σ

/-- Options of a run; durations are milliseconds. -/
structure RunConfig where
  environment : Setting
  insecure : Bool
  delay : Nat
  timeout : Option Nat
  connectionTimeout : Option Nat
  jobs : Nat

/-- No environment, no delay, no timeouts, one file at a time. -/
def RunConfig.default : RunConfig := ⟨.null, false, 0, none, none, 1⟩

/-- The state that the files of a command share. -/
structure Session (σ : Type) where
  world : σ
  /-- The number of the next draw. -/
  next : Nat
  cancelled : Bool
  happenings : List Happening

/-- Steps of a run keep the session when one fails. -/
abbrev Running (σ : Type) := ExceptT Failure (StateM (Session σ))

/-- Counts and contexts of one run of a file. -/
structure FileRun where
  filename : String
  store : Store
  succeeded : Nat
  failed : Nat
  skipped : Nat
  cancelled : Bool
  deriving DecidableEq, Repr

structure Results where
  success : Bool
  files : List FileRun
  deriving DecidableEq, Repr

namespace FileRun

def start (filename : String) : FileRun := ⟨filename, .empty, 0, 0, 0, false⟩

def total (f : FileRun) : Nat :=
  f.succeeded + f.failed + f.skipped

def count (f : FileRun) : Status → FileRun
  | .succeeded => { f with succeeded := f.succeeded + 1 }
  | .failed => { f with failed := f.failed + 1 }
  | .skipped => { f with skipped := f.skipped + 1 }

end FileRun

/-- A command succeeds when no request of any file failed. -/
def Results.ofFiles (files : List FileRun) : Results :=
  ⟨files.all fun f => f.failed = 0, files⟩

namespace Run

variable {σ : Type}

def happen (h : Happening) : Running σ Unit :=
  modify fun s => { s with happenings := s.happenings ++ [h] }

def note (n : Note) : Running σ Unit :=
  happen (.note n)

/-- A pause; one of no length is not made. -/
def pause (milliseconds : Option Nat) : Running σ Unit :=
  match milliseconds with
  | some (n + 1) => happen (.pause (n + 1))
  | _ => pure ()

def notes : List Note → Running σ Unit
  | [] => pure ()
  | n :: rest => do
    note n
    notes rest

/-- Why a request is not dispatched, as far as dependency and conditions say. -/
def skipReason (store : Store) (r : Request) : Running σ (Option String) :=
  if !store.dependencyMet r.dependsOn then
    pure (some ("dependency '" ++ r.dependsOn.getD "" ++ "' not met"))
  else do
    let evaluations := Condition.evaluateAll r.conditions store
    notes (evaluations.map .condition)
    pure (if evaluations.all (·.met) then none else some "conditions not met")

def resolve (src : Sources) (store : Store) (vars : List Variable) (r : Request) :
    Running σ (Except Resolution.Fault Request) := do
  let s ← get
  let (result, progress) := (Resolution.request src store vars r).run ⟨s.next, []⟩
  set { s with next := progress.next }
  notes progress.notes
  pure result

/-- A timeout that a request does not set, or sets to zero, is the configured one. -/
def timeoutOr (configured : Option Nat) : Option Nat → Option Nat
  | some (n + 1) => some (n + 1)
  | _ => configured

def withTimeouts (config : RunConfig) (r : Request) : Request :=
  { r with
    timeout := timeoutOr config.timeout r.timeout
    connectionTimeout := timeoutOr config.connectionTimeout r.connectionTimeout }

def failedOutcome (r : Request) (fault : TransportFault) : Outcome :=
  { status := 0
    success := false
    duration := fault.duration
    requestName := r.name
    message := some fault.message
    headers := none
    body := none
    assertions := [] }

/-- The outcome with its assertions checked; it is a success only if all of them pass. -/
def checked (r : Request) (o : Outcome) : Outcome :=
  if r.assertions.isEmpty then o
  else
    let results := Assertion.checkAll r.assertions o
    { o with assertions := results, success := o.success && results.all (·.passed) }

def verdict (r : Request) : Except TransportFault Outcome → Outcome
  | .error fault => failedOutcome r fault
  | .ok o => checked r o

def dispatch (host : Host σ) (insecure : Bool) (r : Request) : Running σ Outcome := do
  happen (.send r insecure)
  let s ← get
  let (reply, world) := host.send r insecure s.world
  set { s with
    world
    cancelled := s.cancelled || reply.cancels
    happenings := s.happenings ++ reply.remarks.map Remark.happening }
  pure (verdict r reply.outcome)

def skip (run : FileRun) (index total : Nat) (r : Request) (reason : String) :
    Running σ (Event × FileRun) := do
  let name := Store.nameFor r (index + 1)
  note (.skipped name r.method r.url reason)
  pure (⟨index, total, name, r, .skipped, none, some reason⟩,
    { run with store := run.store.record r none (index + 1) })

/-- Sends a resolved request, with its pauses, and records it. -/
def perform (host : Host σ) (config : RunConfig) (run : FileRun) (index total : Nat)
    (r : Request) : Running σ (Event × FileRun) := do
  pause r.preDelay
  let r := withTimeouts config r
  let o ← dispatch host config.insecure r
  pause r.postDelay
  let name := Store.nameFor r (index + 1)
  let status := if o.success then Status.succeeded else .failed
  note (.finished name r.method r.url status o.status o.duration)
  pure (⟨index, total, name, r, status, some o, o.message⟩,
    { run with store := run.store.record r (some o) (index + 1) })

def process (host : Host σ) (config : RunConfig) (vars : List Variable) (run : FileRun)
    (index total : Nat) (r : Request) : Running σ (Event × FileRun) := do
  match ← skipReason run.store r with
  | some reason => skip run index total r reason
  | none =>
    match ← resolve host.sources run.store vars r with
    | .error (.unresolved placeholder) =>
      skip run index total r (Resolution.unresolvedMessage placeholder)
    | .error .tooManyDigits => throw (.defect .tooManyDigits)
    | .ok resolved => perform host config run index total resolved

def deliver (host : Host σ) (e : Event) : Running σ Unit := do
  happen (.event e)
  let s ← get
  let (goOn, world) := host.observe e s.world
  set { s with world, cancelled := s.cancelled || !goOn }

/-- Takes a run past the request at an index: the pause between requests, the request itself and its
event. -/
def pass (host : Host σ) (config : RunConfig) (vars : List Variable) (total : Nat) (run : FileRun)
    (index : Nat) (r : Request) : Running σ FileRun := do
  if index != 0 then pause (some config.delay)
  let (e, run) ← process host config vars run index total r
  deliver host e
  pure (run.count e.status)

/-- Processes requests, the first of which has an index. `events` bounds the number of events; when
it is used up the run stays unfinished and there is no result. -/
def requestsFrom (host : Host σ) (config : RunConfig) (vars : List Variable) (total : Nat)
    (events : Option Nat) (run : FileRun) (index : Nat) :
    List Request → Running σ (Option FileRun)
  | [] => pure (if events = some 0 then none else some run)
  | r :: rest => do
    if events = some 0 then pure none
    else if (← get).cancelled then
      note (.cancelled index total run.filename)
      pure (some { run with cancelled := true })
    else
      let run ← pass host config vars total run index r
      requestsFrom host config vars total (events.map (· - 1)) run (index + 1) rest

def requests (host : Host σ) (config : RunConfig) (vars : List Variable) (events : Option Nat)
    (filename : String) (rs : List Request) : Running σ (Option FileRun) :=
  requestsFrom host config vars rs.length events (.start filename) 0 rs

def load (tree : FileTree) (vars : List Variable) (path : String) :
    Except Failure (List Request) × List Note :=
  match tree.readText path with
  | .error (.file fault) => (.error (.file fault), [])
  | .error (.encoding e) => (.error (.requestFileEncoding path e), [])
  | .ok text =>
    match RequestFile.parse vars text with
    | .error failed => (.error (.ofRequestFile failed.error), .parsing path :: failed.notes)
    | .ok parsed => (.ok parsed.requests, .parsing path :: parsed.notes)

/-- Takes a result with its notes over into the run. -/
def noting (result : Except Failure α × List Note) : Running σ α := do
  notes result.2
  match result.1 with
  | .ok a => pure a
  | .error e => throw e

/-- Reads a request file and runs its requests. -/
def file (tree : FileTree) (host : Host σ) (config : RunConfig) (events : Option Nat)
    (path : String) : Running σ (Option FileRun) := do
  if events = some 0 then pure none
  else
    let rs ← noting (load tree [] path)
    let vars ← noting (Environment.load tree path config.environment)
    note (.processing path rs.length)
    requests host config vars events path rs

def wholeFile (tree : FileTree) (host : Host σ) (config : RunConfig) (path : String) :
    Running σ FileRun := do
  match ← file tree host config none path with
  | some run => pure run
  | none => pure (.start path)

/-- The result of some steps as a value. -/
def attempt (steps : Running σ α) : Running σ (Except Failure α) :=
  ExceptT.lift steps.run

/-- Runs files one after the other, up to the first that fails. -/
def inSequence (tree : FileTree) (host : Host σ) (config : RunConfig) :
    List String → Running σ (List FileRun)
  | [] => pure []
  | path :: rest => do
    let run ← wholeFile tree host config path
    let runs ← inSequence tree host config rest
    pure (run :: runs)

/-- Runs every file, also after one that fails. -/
def independently (tree : FileTree) (host : Host σ) (config : RunConfig) :
    List String → Running σ (List (Except Failure FileRun))
  | [] => pure []
  | path :: rest => do
    let run ← attempt (wholeFile tree host config path)
    let runs ← independently tree host config rest
    pure (run :: runs)

/-- All results, or the failure of the first file that has none. -/
def collect : List (Except Failure FileRun) → Except Failure (List FileRun)
  | [] => .ok []
  | .error e :: _ => .error e
  | .ok run :: rest => (collect rest).map (run :: ·)

/-- Runs request files. With several jobs a file that fails does not keep the others from running;
either way the failure of the first such file is the one reported. -/
def files (tree : FileTree) (host : Host σ) (config : RunConfig) (paths : List String) :
    Running σ Results := do
  if 1 < config.jobs && 1 < paths.length then
    match collect (← independently tree host config paths) with
    | .ok runs => pure (.ofFiles runs)
    | .error e => throw e
  else
    let runs ← inSequence tree host config paths
    pure (.ofFiles runs)

end Run

end DotHttp
