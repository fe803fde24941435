import DotHttp.Run

/-!
Reports: the plain text that is shown of events, files and whole commands.
-/

namespace DotHttp.Report

/-- A JSON object or array with one item per line; any other text as it is. -/
def prettyJson (text : String) : String :=
  match Json.parse text.toList with
  | .ok (.array items) => Json.wideText (.array items)
  | .ok (.object fields) => Json.wideText (.object fields)
  | _ => text

def assertion (r : AssertionResult) : String :=
  let line := "  " ++ (if r.passed then "PASS" else "FAIL") ++ " " ++ r.assertion.kind.word ++ ": " ++
    r.assertion.expected
  match r.message with
  | some m => if r.passed || m = "" then line else line ++ " (" ++ m ++ ")"
  | none => line

def label : Status → String
  | .succeeded => "OK"
  | .failed => "FAIL"
  | .skipped => "SKIP"

def orNone (s : Option String) : String :=
  s.getD "None"

/-- The headers and the body of an answer; empty ones are left out. -/
def details (pretty : Bool) (o : Outcome) : List String :=
  let headers :=
    match o.headers.getD [] with
    | [] => []
    | hs => "HEADERS:" :: hs.map fun (n, v) => s!"  {n}: {v}"
  let body :=
    match o.body.getD "" with
    | "" => []
    | b => ["BODY:", if pretty then prettyJson b else b]
  headers ++ body

/-- The text of an outcome after the name of the request. -/
def outcome (verbose pretty : Bool) (status : Status) (o : Outcome) : String :=
  if o.status = 0 then s!" - {label status} {orNone o.message} ({o.duration}ms)"
  else
    "\n".intercalate (s!" - {label status} {o.status} ({o.duration}ms)" ::
      o.assertions.map assertion ++ if verbose then details pretty o else [])

/-- The text of an event. A request that was dispatched has an outcome, and only then a text. -/
def event? (verbose pretty : Bool) (e : Event) : Option String :=
  let head := s!"[{e.index + 1}/{e.total}] {e.name}: {e.request.method} {e.request.url}"
  match e.status with
  | .skipped => some (head ++ s!" - {label e.status} ({orNone e.reason})")
  | status => e.outcome.map fun o => head ++ outcome verbose pretty status o

def event (verbose pretty : Bool) (e : Event) : String :=
  (event? verbose pretty e).getD ""

def file (f : FileRun) : String :=
  s!"{f.filename}: {f.succeeded} passed, {f.failed} failed, {f.skipped} skipped" ++
    if f.cancelled then " (cancelled)" else ""

def sum (f : FileRun → Nat) (files : List FileRun) : Nat :=
  (files.map f).foldr (· + ·) 0

def overall (r : Results) : String :=
  let verdict := if r.success then "PASSED" else "FAILED"
  let passed := sum (·.succeeded) r.files
  let failed := sum (·.failed) r.files
  let skipped := sum (·.skipped) r.files
  s!"{verdict}: {r.files.length} file(s), {passed} passed, {failed} failed, {skipped} skipped"

/-- The summary of a command: a line for each file, and one for all. -/
def summary (r : Results) : List String :=
  r.files.map file ++ [overall r]

end DotHttp.Report
