import DotHttp.Condition
import DotHttp.Text.Quoted

/-!
Notes: what the library reports about its work while it goes on. Each kind of note has a level, a
source and a wording.
-/

namespace DotHttp

inductive Level where
  | debug
  | info
  | warning
  deriving DecidableEq, Repr

def Level.rank : Level → Nat
  | .debug => 0
  | .info => 1
  | .warning => 2

def Level.word : Level → String
  | .debug => "DEBUG"
  | .info => "INFO"
  | .warning => "WARNING"

/-- The status of a request in a run. -/
inductive Status where
  | skipped
  | succeeded
  | failed
  deriving DecidableEq, Repr

def Status.word : Status → String
  | .skipped => "skipped"
  | .succeeded => "succeeded"
  | .failed => "failed"

inductive Note where
  | duplicateName (name : String) (line : Nat)
  | directivesIgnored
  | parsing (path : String)
  | resolved (placeholder : String)
  | noEnvironmentFile (path : String)
  | environmentUndefined (environment path : String)
  | environmentLoaded (count : Nat) (environment path : String)
  | sending (method url : String) (connect read : Nat)
  | processing (path : String) (count : Nat)
  | cancelled (done total : Nat) (filename : String)
  | condition (evaluation : Condition.Evaluation)
  | skipped (name method url reason : String)
  | finished (name method url : String) (status : Status) (code : Int) (duration : Nat)
  | configLoaded (path : String)
  | envFileMissing (path : String)
  | exported (path : String)
  deriving DecidableEq, Repr

namespace Note

def level : Note → Level
  | duplicateName .. | directivesIgnored | environmentUndefined .. | envFileMissing .. => .warning
  | processing .. | cancelled .. | skipped .. | finished .. | exported .. => .info
  | _ => .debug

/-- The part of the library that a note comes from. -/
def source : Note → String
  | duplicateName .. | directivesIgnored | parsing .. => "parser"
  | resolved .. => "variables"
  | noEnvironmentFile .. | environmentUndefined .. | environmentLoaded .. => "environment"
  | sending .. => "executor"
  | processing .. | cancelled .. | condition .. | skipped .. | finished .. => "processor"
  | configLoaded .. | envFileMissing .. | exported .. => "core"

def conditionMessage (e : Condition.Evaluation) : String :=
  let word := if e.condition.negated then "@if-not" else "@if"
  let sign := if e.condition.negated then "!=" else "=="
  let actual :=
    match e.actual with
    | some a => a.quotedForm
    | none => "None"
  s!"{word} {e.condition.describe} {sign}: expected {e.condition.expected.quotedForm}, " ++
    s!"actual {actual} -> " ++ if e.met then "met" else "not met"

def message : Note → String
  | duplicateName name line =>
    s!"Duplicate request name '{name}' at line {line}; later references use this request"
  | directivesIgnored => "Directives after the last request line are ignored"
  | parsing path => s!"Parsing {path}"
  | resolved placeholder => s!"Resolved {placeholder}"
  | noEnvironmentFile path => s!"No http-client.env.json found above {path}"
  | environmentUndefined environment path => s!"Environment '{environment}' not defined in {path}"
  | environmentLoaded count environment path =>
    s!"Loaded {count} variable(s) for '{environment}' from {path}"
  | sending method url connect read => s!"{method} {url} (connect {connect}ms, read {read}ms)"
  | processing path count => s!"Processing {path}: {count} request(s)"
  | cancelled done total filename =>
    s!"Cancelled after {done} of {total} request(s) in {filename}"
  | condition e => conditionMessage e
  | skipped name method url reason => s!"Skipped {name} {method} {url}: {reason}"
  | finished name method url status code duration =>
    s!"{name} {method} {url} - {status.word} {code} ({duration}ms)"
  | configLoaded path => s!"Loaded config from {path}"
  | envFileMissing path => s!"env_file {path} not found"
  | exported path => s!"Exported results to {path}"

end Note

end DotHttp
