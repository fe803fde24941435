import DotHttp.Run

/-!
Results as JSON, and their export into a file that is named for the time.
-/

namespace DotHttp.Export

open DotHttp.Json

def optionalText : Option String → Json :=
  optional text

def optionalNat : Option Nat → Json :=
  optional nat

def assertion (a : Assertion) : Json :=
  record [("type", text a.kind.word), ("expected_value", text a.expected)]

def conditionKind : Condition.Kind → String
  | .status => "status"
  | .bodyPath => "body_json_path"

def condition (c : Condition) : Json :=
  record [
    ("request_name", text c.requestName),
    ("type", text (conditionKind c.kind)),
    ("json_path", optionalText c.path),
    ("expected_value", text c.expected),
    ("negate", .bool c.negated)]

def header (h : Header) : Json :=
  record [("name", text h.name), ("value", text h.value)]

def request (r : Request) : Json :=
  record [
    ("name", optionalText r.name),
    ("method", text r.method),
    ("url", text r.url),
    ("headers", .array (r.headers.map header)),
    ("body", optionalText r.body),
    ("assertions", .array (r.assertions.map assertion)),
    ("conditions", .array (r.conditions.map condition)),
    ("depends_on", optionalText r.dependsOn),
    ("timeout", optionalNat r.timeout),
    ("connection_timeout", optionalNat r.connectionTimeout),
    ("pre_delay_ms", optionalNat r.preDelay),
    ("post_delay_ms", optionalNat r.postDelay)]

def assertionResult (r : AssertionResult) : Json :=
  record [
    ("assertion", assertion r.assertion),
    ("passed", .bool r.passed),
    ("actual_value", optionalText r.actual),
    ("error_message", optionalText r.message)]

/-- How the headers of an answer are written. -/
abbrev HeaderForm := List (String × String) → Json

def headerFields : HeaderForm :=
  fun headers => record (headers.map fun (n, v) => (n, text v))

def outcome (form : HeaderForm) (o : Outcome) : Json :=
  record [
    ("request_name", optionalText o.requestName),
    ("status_code", .integer o.status),
    ("success", .bool o.success),
    ("error_message", optionalText o.message),
    ("duration_ms", nat o.duration),
    ("response_headers", optional form o.headers),
    ("response_body", optionalText o.body),
    ("assertion_results", .array (o.assertions.map assertionResult))]

def context (form : HeaderForm) (c : Context) : Json :=
  record [
    ("name", text c.name),
    ("request", request c.request),
    ("result", optional (outcome form) c.outcome)]

def fileFields (form : HeaderForm) (f : FileRun) : List (String × Json) := [
  ("filename", text f.filename),
  ("success_count", nat f.succeeded),
  ("failed_count", nat f.failed),
  ("skipped_count", nat f.skipped),
  ("cancelled", .bool f.cancelled),
  ("result_contexts", .array (f.store.contexts.map (context form)))]

def results (r : Results) : Json :=
  record [
    ("success", .bool r.success),
    ("files", .array (r.files.map fun f => record (fileFields headerFields f)))]

/-- The file that an export at a time in seconds is written to. -/
def fileName (seconds : Int) : String :=
  s!"httprunner_results_{seconds}.json"

/-- Writes results into a directory, which is made if it is missing. No name stands for the working
directory. Gives the path of the file. -/
def write (tree : FileTree) (r : Results) (directory : String) (seconds : Int) :
    Except FileTree.Fault (String × FileTree) := do
  let directory := FileTree.plainPath directory
  let tree ← tree.makeDirectories directory
  let path := FileTree.join directory (fileName seconds)
  let tree ← tree.write path (wideText (results r)).toUTF8.toList
  .ok (path, tree)

end DotHttp.Export
