import Interconnect.Command.Options

/-!
# What a run of a command leaves behind

A command prints its result and succeeds, or prints nothing, names an error with its causes, and
fails.  Errors are named on standard error, where the log of the command stands as well: what has been
logged comes first, since a command reports only when its work is over.
-/

namespace Interconnect.Command

inductive Report
  | done (output : String)
  | failed (message : String) (causes : List String)
  | stopped (stop : Stop) (usage : String)
  deriving DecidableEq, Repr

namespace Report

def exitCode : Report → UInt8
  | done _ => 0
  | failed .. => 1
  | stopped .help _ => 0
  | stopped .misuse _ => 2

def output : Report → String
  | done output => output
  | failed .. => ""
  | stopped .help usage => usage
  | stopped .misuse _ => ""

def causeLine (cause : String) : String :=
  "  caused by: " ++ cause ++ "\n"

/-- What a report adds to standard error: the error on a line of its own, followed by a line for each
cause. -/
def diagnostics : Report → String
  | done _ => ""
  | failed message causes =>
    "error: " ++ message ++ "\n" ++ String.join (causes.map causeLine)
  | stopped .help _ => ""
  | stopped .misuse usage => "error: unusable arguments\n" ++ usage

/-- The whole of standard error: the entries of the log, each ended by a line break, and then the
diagnostics. -/
def standardError (report : Report) (log : List String) : String :=
  String.join (log.map (· ++ "\n")) ++ report.diagnostics

end Report

end Interconnect.Command
