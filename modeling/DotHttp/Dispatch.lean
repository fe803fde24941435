import DotHttp.Failure
import DotHttp.Number.Shortest

/-!
Dispatch of a resolved request: what goes over the wire, and the outcome made of what comes back.
Durations are read off a clock that runs in seconds.
-/

namespace DotHttp

/-- A request as it goes over the wire; the timeouts are milliseconds. -/
structure WireRequest where
  method : String
  url : String
  headers : List (String × String)
  body : Option String
  connectTimeout : Nat
  readTimeout : Nat
  verify : Bool
  deriving DecidableEq, Repr

/-- A response as it comes from the wire. -/
structure WireResponse where
  status : Int
  headers : List (String × String)
  body : String
  deriving DecidableEq, Repr

/-- The kinds of faults that a wire can have. -/
inductive WireFault.Kind where
  | timeout
  | connection
  | request
  | other
  deriving DecidableEq, Repr

structure WireFault where
  kind : WireFault.Kind
  message : String
  deriving DecidableEq, Repr

def WireFault.text (f : WireFault) : String :=
  match f.kind with
  | .timeout => "Request timeout: " ++ f.message
  | .connection => "Connection error: " ++ f.message
  | .request => "Request failed: " ++ f.message
  | .other => "Unexpected error: " ++ f.message

namespace Dispatch

def defaultConnectTimeout : Nat := 30000

def defaultReadTimeout : Nat := 60000

/-- Adds a header to those merged so far; names that agree up to letter case are one header, under
its first spelling, whose values are joined by commas. -/
def addHeader (name value : String) : List (String × String) → List (String × String)
  | [] => [(name, value)]
  | (n, v) :: rest =>
    if n.lowerCase = name.lowerCase then (n, v ++ ", " ++ value) :: rest
    else (n, v) :: addHeader name value rest

def mergeHeaders (headers : List Header) : List (String × String) :=
  headers.foldl (fun merged h => addHeader h.name h.value merged) []

/-- A timeout that is missing or zero is the default one. -/
def timeoutOr (default : Nat) : Option Nat → Nat
  | some n => if n = 0 then default else n
  | none => default

def wireRequest (r : Request) (insecure : Bool) : WireRequest :=
  { method := r.method.upperCase
    url := r.url
    headers := mergeHeaders r.headers
    body := r.body
    connectTimeout := timeoutOr defaultConnectTimeout r.connectionTimeout
    readTimeout := timeoutOr defaultReadTimeout r.timeout
    verify := !insecure }

def sendingNote (w : WireRequest) : Note :=
  .sending w.method w.url w.connectTimeout w.readTimeout

/-- Milliseconds as the text of a number of seconds. -/
def secondsText (ms : Nat) : String :=
  (Binary64.ofRatio false ms 1000).text

/-- Sets a header by its exact name; a known one keeps its place. -/
def setHeader (name value : String) : List (String × String) → List (String × String)
  | [] => [(name, value)]
  | (n, v) :: rest =>
    if n = name then (n, value) :: rest else (n, v) :: setHeader name value rest

def distinctHeaders (headers : List (String × String)) : List (String × String) :=
  headers.foldl (fun known (n, v) => setHeader n v known) []

/-- The whole milliseconds between two readings of the clock. -/
def elapsed (start stop : Binary64) : Nat :=
  (((stop.sub start).mul (.ofInt 1000)).truncate?.getD 0).toNat

/-- The outcome of what came back between two readings of the clock. Assertions are not yet
checked. -/
def outcome (r : Request) (start stop : Binary64) :
    Except WireFault WireResponse → Except TransportFault Outcome
  | .error f => .error ⟨f.text, elapsed start stop⟩
  | .ok response => .ok
    { status := response.status
      success := isSuccessStatus response.status
      duration := elapsed start stop
      requestName := r.name
      message := none
      headers := some (distinctHeaders response.headers)
      body := some response.body
      assertions := [] }

end Dispatch

end DotHttp
