import DotHttp.CommandLine
import DotHttp.Wire
import Std.Async.DNS
import Std.Async.TCP
import Std.Async.Timer
import Std.Internal.UV.System
import Std.Time

/-!
The program around the command. A command is a pure function of the files it can see and of the
answers to its requests. So the program reads those files, and runs the command again and again:
whenever a run lacks an answer, the pauses before the request are made, the request is sent, and the
next run has one answer more. In the end the changed files are written.
-/

namespace DotHttp.Program

open Std.Async

/-! Files -/

/-- What is at an absolute path on disk. -/
def nodeOnDisk (path : String) : IO (Option FileTree.Node) := do
  let p := (← IO.currentDir) / path
  if ← p.isDir then pure (some .directory)
  else if ← p.pathExists then
    let bytes ← IO.FS.readBinFile p
    pure (some (.file bytes.toList))
  else pure none

/-- Adds what is on disk at a location. -/
def addNode (t : FileTree) (loc : Location) : IO FileTree := do
  if (t.node? loc).isSome then pure t
  else
    match ← nodeOnDisk (t.display loc) with
    | some node => pure (t.put loc node)
    | none => pure t

/-- Adds what is on disk at a location, with the directories above it and their environment
files. -/
def addLocation (t : FileTree) (loc : Location) : IO FileTree := do
  let t ← (List.range loc.length).foldlM (fun t n => do
    let t ← addNode t (loc.take n)
    addNode t (loc.take n ++ [Environment.fileName])) t
  addNode t loc

/-- Adds the request files and environment files below a directory. -/
partial def addBelow (t : FileTree) (loc : Location) : IO FileTree := do
  let entries ← ((← IO.currentDir) / t.display loc).readDir
  entries.toList.foldlM (fun t entry => do
    let below := loc ++ [entry.fileName]
    if (← entry.path.symlinkMetadata).type == .dir then
      let t ← addNode t below
      addBelow t below
    else if entry.fileName.endsWith CommandLine.requestFileEnding ||
        entry.fileName == Environment.fileName then addNode t below
    else pure t) t

def textAt (entries : List (Setting × Setting)) (key : String) : List String :=
  match Setting.lookup entries key with
  | some (.text s) => [s]
  | _ => []

/-- The files that the configuration names, as far as it can be read. -/
def configuredPaths (t : FileTree) (around : EnvFile.Bindings) (args : List String) :
    List String :=
  match CommandLine.parse t args with
  | .ok (.run a) =>
    match (Config.load t (Config.find t a.config)).1 with
    | .ok document =>
      let entries := match document.defaults with
        | .mapping entries => entries
        | _ => []
      let resolved := match Config.resolve t around document with
        | .ok defaults => defaults.entries
        | .error _ => []
      (textAt entries "env_file").map (FileTree.join (document.directory.getD ".")) ++
        textAt resolved "log_file"
    | .error _ => []
  | _ => []

/-- The paths that a command may look at. -/
def namedPaths (t : FileTree) (around : EnvFile.Bindings) (args : List String) : List String :=
  args ++ Config.candidates ++ [t.display (t.homeDirectory ++ Config.homeNames)] ++
    configuredPaths t around args

/-- Adds the files that are named. Files name further files, so this is done three times: for the
configuration, for the environment settings that it names, and for what those settings name. -/
def addNamed (around : EnvFile.Bindings) (args : List String) (t : FileTree) : IO FileTree :=
  (List.range 3).foldlM (fun t _ =>
    (namedPaths t around args).foldlM (fun t path => addLocation t (t.resolve path)) t) t

/-- The part of the disk that a command can see. -/
def readTree (around : EnvFile.Bindings) (args : List String) : IO FileTree := do
  let here := FileTree.names (toString (← IO.currentDir))
  let home := FileTree.names ((around.lookup "HOME").getD "/")
  let t ← addNamed around args ⟨[], here, home, "", List.nodup_nil⟩
  if args.contains "--discover" then addBelow t here else pure t

/-- Writes the files and directories that a command has made or changed. -/
def writeTree (before after : FileTree) : IO Unit :=
  after.nodes.forM fun (loc, node) => do
    if before.node? loc != some node then
      match node with
      | .directory => IO.FS.createDirAll (after.display loc)
      | .file bytes => IO.FS.writeBinFile (after.display loc) ⟨bytes.toArray⟩

/-! Network -/

/-- The result of some steps, unless they take too long. -/
def within (milliseconds : Nat) (steps : Async α) : IO (Option α) :=
  (Async.race (do pure (some (← steps))) (do
    sleep (Std.Time.Millisecond.Offset.ofNat milliseconds)
    pure none)).block

/-- The socket address of a service on a host. -/
def socketAddress (ip : Std.Net.IPAddr) (service : Nat) : Std.Net.SocketAddress :=
  match ip with
  | .v4 a => .v4 ⟨a, UInt16.ofNat service⟩
  | .v6 a => .v6 ⟨a, UInt16.ofNat service⟩

def resolveHost (a : Wire.Address) : Async (List Std.Net.IPAddr) := do
  let found ← DNS.getAddrInfo a.host (toString a.service)
  pure found.toList

/-- Reads up to the end of a connection; `none` when the other side is silent for too long. -/
partial def receive (socket : TCP.Socket.Client) (milliseconds : Nat) (bytes : ByteArray) :
    IO (Option ByteArray) := do
  match ← within milliseconds (socket.recv? 65536) with
  | none => pure none
  | some none => pure (some bytes)
  | some (some more) => receive socket milliseconds (bytes ++ more)

def timeoutFault (w : WireRequest) : WireFault :=
  ⟨.timeout, s!"no answer from {w.url}"⟩

def connectionFault (message : String) : WireFault :=
  ⟨.connection, message⟩

/-- Sends the bytes of a request and reads the response. -/
def talk (w : WireRequest) (a : Wire.Address) (bytes : List UInt8) :
    IO (Except WireFault WireResponse) := do
  match ← (resolveHost a).block with
  | [] => pure (.error (connectionFault s!"no address for {a.host}"))
  | ip :: _ => do
    let socket ← TCP.Socket.Client.mk
    match ← within w.connectTimeout (socket.connect (socketAddress ip a.service)) with
    | none => pure (.error (timeoutFault w))
    | some _ => do
      (socket.send ⟨bytes.toArray⟩).block
      match ← receive socket w.readTimeout ByteArray.empty with
      | none => pure (.error (timeoutFault w))
      | some answer =>
        match Wire.response? w.method answer.toList with
        | some response => pure (.ok response)
        | none => pure (.error (connectionFault s!"no whole response from {w.url}"))

def exchange (w : WireRequest) : IO (Except WireFault WireResponse) :=
  match Wire.address? w.url with
  | none => pure (.error ⟨.request, s!"no address for {w.url}"⟩)
  | some a =>
    match Wire.requestBytes? a w with
    | none => pure (.error ⟨.request, "a header has more than one line"⟩)
    | some bytes =>
      try talk w a bytes
      catch e => pure (.error (connectionFault (toString e)))

/-! Time and chance -/

def clock : IO Binary64 := do
  pure (Binary64.ofRatio false (← IO.monoMsNow) 1000)

def moment (t : Std.Time.PlainDateTime) : Moment :=
  { year := t.year.toInt.toNat
    month := t.month.val.toNat
    day := t.day.val.toNat
    hour := t.hour.val.toNat
    minute := t.minute.val.toNat
    second := t.second.val.toNat }

/-- The draws come from a generator that is seeded once, so every run of a command has the same. -/
def sources : IO Sources := do
  let now ← Std.Time.Timestamp.now
  let seed ← IO.rand 0 (Nat.pow 2 32)
  let utc := Std.Time.WallTime.ofTimestamp now Std.Time.TimeZone.UTC.offset
  pure
    { draw := fun n => (randNat (mkStdGen (seed + n)) 0 (Nat.pow 2 128 - 1)).1
      localTime := moment (← Std.Time.PlainDateTime.now)
      utcTime := moment (Std.Time.PlainDateTime.ofWallTime utc) }

/-- The date, the time and the milliseconds that stand before the lines of a log file. -/
def stamp (now : Std.Time.Timestamp) (here : Moment) : String :=
  let ms := toString (now.toMillisecondsSinceUnixEpoch.val % 1000)
  here.dateTime ++ "," ++ String.ofList (List.replicate (3 - ms.length) '0') ++ ms ++ " "

/-! Runs -/

/-- An answer, and the clock when the request was sent and when the answer was there. -/
structure Answer where
  start : Binary64
  stop : Binary64
  result : Except WireFault WireResponse

/-- The answers that a run has not used yet, and the first request it has no answer for. -/
structure Supply where
  answers : List Answer
  wanted : Option WireRequest

/-- Answers a request out of the supply; a run that lacks an answer is cancelled. -/
def supply (r : Request) (insecure : Bool) (s : Supply) : Reply × Supply :=
  let w := Dispatch.wireRequest r insecure
  match s.answers with
  | a :: rest =>
    (⟨Dispatch.outcome r a.start a.stop a.result, [.note (Dispatch.sendingNote w)], false⟩,
      { s with answers := rest })
  | [] => (⟨.error ⟨"", 0⟩, [], true⟩, { s with wanted := s.wanted.or (some w) })

def isSend : Happening → Bool
  | .send .. => true
  | _ => false

/-- What happens after a number of requests and before the next one. -/
def afterSends : Nat → List Happening → List Happening
  | 0, hs => hs.takeWhile (!isSend ·)
  | n + 1, hs => afterSends n ((hs.dropWhile (!isSend ·)).drop 1)

def makePauses (hs : List Happening) : IO Unit :=
  hs.forM fun
    | .pause ms => IO.sleep (UInt32.ofNat (min ms (Nat.pow 2 32 - 1)))
    | _ => pure ()

/-- Runs a command with more and more answers until it lacks none. -/
partial def complete (run : Supply → CommandLine.Ending × CommandLine.Machine Supply)
    (answers : List Answer) : IO (CommandLine.Ending × CommandLine.Machine Supply) := do
  let (ending, machine) := run ⟨answers, none⟩
  makePauses (afterSends answers.length ending.happenings)
  match machine.world.wanted with
  | none => pure (ending, machine)
  | some w => do
    let start ← clock
    let result ← exchange w
    let stop ← clock
    complete run (answers ++ [⟨start, stop, result⟩])

/-- Carries a command out and gives its status. -/
def carryOut (args : List String) : IO UInt32 := do
  let bindings := (← Std.Internal.UV.System.osEnviron).toList
  let now ← Std.Time.Timestamp.now
  let src ← sources
  let host : Host Supply := ⟨src, supply, fun _ s => (true, s)⟩
  let tree ← readTree bindings args
  let around : CommandLine.Surroundings :=
    { bindings
      seconds := now.toSecondsSinceUnixEpoch.val
      stamp := stamp now src.localTime
      styledOutput := ← (← IO.getStdout).isTty
      styledErrors := ← (← IO.getStderr).isTty }
  let (ending, machine) ← complete
    (fun s => CommandLine.invoke host around ⟨tree, s, 0, none⟩ args) []
  writeTree tree machine.tree
  IO.print ending.output
  IO.eprint ending.errors
  pure (UInt32.ofNat ending.status)

end DotHttp.Program

/-- The program takes the arguments of the command and ends with its status. -/
def main (args : List String) : IO UInt32 :=
  DotHttp.Program.carryOut args
