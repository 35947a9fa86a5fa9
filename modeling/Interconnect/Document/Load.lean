import Interconnect.Document.Basic
import Interconnect.Files.Basic
import Interconnect.Log

/-!
# Loading a document

A document is loaded in three stages: the file is read, the text is interpreted, and the version is
compared with the supported one.  Each stage is reached only if the one before it succeeds.
-/

namespace Interconnect.Document

/-- Why a document cannot be loaded. -/
inductive LoadError
  | unreadable (path : String) (fault : Files.Fault)
  | unusable (path : String) (rejection : Rejection)
  | unsupported (version : UInt32)
  deriving DecidableEq, Repr

def LoadError.message : LoadError → String
  | unreadable path _ => "failed to read " ++ Text.quoted path
  | unusable path _ => "failed to parse " ++ Text.quoted path
  | unsupported version =>
    s!"unsupported schema_version {version.toNat} (expected {currentVersion.toNat})"

def Rejection.description : Rejection → String
  | fault .truncated => "the text ends too early"
  | fault .malformed => "the text is not JSON"
  | mismatch m => m.message

def LoadError.causes : LoadError → List String
  | unreadable _ fault => [fault.description]
  | unusable _ rejection => [rejection.description]
  | unsupported _ => []

/-- The event of a load, which happens before the file is looked at. -/
def loading (path : String) : Log.Event where
  level := .info
  message := "loading network spec"
  fields := [("path", path)]
  span? := none

def load (files : Files) (path : String) : Except LoadError Document :=
  match files.readText path with
  | .error fault => .error (.unreadable path fault)
  | .ok text =>
    match read text with
    | .error rejection => .error (.unusable path rejection)
    | .ok document =>
      if document.version = currentVersion then .ok document
      else .error (.unsupported document.version)

end Interconnect.Document
