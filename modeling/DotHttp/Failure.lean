import DotHttp.FileTree
import DotHttp.Json.Reader
import DotHttp.RequestFile
import DotHttp.Resolution
import DotHttp.Setting

/-!
Failures: everything that can stop a command, with its wording. Faults that no message is written
for end the program where they arise.
-/

namespace DotHttp

/-- No answer was obtained. -/
structure TransportFault where
  message : String
  duration : Nat
  deriving DecidableEq, Repr

/-- Why an environment file cannot be used. -/
inductive EnvironmentFault where
  | malformed (fault : Json.Fault) (place : Json.Place)
  | notText (error : Text.Utf8Error)
  | notObject
  deriving DecidableEq, Repr

/-- Faults that are not reported but end the program. -/
inductive Defect where
  /-- A numeral has too many digits. -/
  | tooManyDigits
  /-- An infinite number stands where a whole one is needed. -/
  | infiniteNumber
  /-- The defaults section is no mapping. -/
  | notMapping
  /-- A value of the wrong kind stands where a path or a key is needed. -/
  | wrongKind
  /-- A configuration file is no text. -/
  | undecodable
  /-- A configuration file has a scalar that looks like a value it cannot be. -/
  | impossibleValue
  /-- An escape in a configuration file has a number beyond 31 bits. -/
  | escapeTooLarge
  deriving DecidableEq, Repr

inductive Failure where
  | request (line : Nat) (fault : RequestFile.Fault)
  | requestFileEncoding (path : String) (error : Text.Utf8Error)
  | environment (path : String) (fault : EnvironmentFault)
  | unresolved (placeholder : String)
  | transport (fault : TransportFault)
  | invalidSetting (key : String) (value : Setting)
  | configSyntax
  | configNotMapping (path : String)
  | file (fault : FileTree.Fault)
  | defect (defect : Defect)

namespace Failure

def environmentMessage (path : String) : EnvironmentFault → String
  | .malformed fault place =>
    s!"Invalid environment file {path}: " ++ Json.malformedMessage fault place
  | .notText e => s!"{path} is not valid UTF-8: " ++ e.message
  | .notObject => s!"Invalid environment file {path}: top level must be an object"

/-- The wording of a failure; a defect has none. -/
def message : Failure → String
  | .request line fault => s!"line {line}: " ++ fault.message
  | .requestFileEncoding path e => s!"{path} is not valid UTF-8: " ++ e.message
  | .environment path fault => environmentMessage path fault
  | .unresolved placeholder => Resolution.unresolvedMessage placeholder
  | .transport fault => fault.message
  | .invalidSetting key value => s!"Invalid value for {key}: {value.quotedText}"
  | .configSyntax => "Invalid config file"
  | .configNotMapping path => s!"Invalid config file {path}: expected a mapping"
  | .file fault => fault.message
  | .defect _ => ""

/-- Whether a failure is reported with its message. -/
def isReported : Failure → Bool
  | .defect _ => false
  | _ => true

def ofRequestFile : RequestFile.Error → Failure
  | .malformed line fault => .request line fault
  | .tooManyDigits => .defect .tooManyDigits

def ofResolution : Resolution.Fault → Failure
  | .unresolved placeholder => .unresolved placeholder
  | .tooManyDigits => .defect .tooManyDigits

end Failure

end DotHttp
