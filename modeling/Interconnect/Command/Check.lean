import Interconnect.Command.Report
import Interconnect.Document.Load
import Interconnect.Engine

/-!
# Checking a document

The command `bind-check` loads a document, builds its topology, and binds its network.  It reports
the first stage that fails, or what has been bound.  Unless other events are asked for, it logs all
that happens but the details, so that the loading of the document is logged ahead of every report.
-/

namespace Interconnect.Command.Check

structure Settings where
  document : Option String
  skipConfigCheck : Bool
  dumpNodeMap : Bool
  deriving DecidableEq, Repr

def Settings.default : Settings :=
  ⟨none, false, false⟩

def Settings.configCheck (s : Settings) : ConfigCheck :=
  if s.skipConfigCheck then .skip else .require

/-- The document may lie at any path but the empty one. -/
def Settings.setDocument? (s : Settings) (path : String) : Option Settings :=
  if path.isEmpty then none else some { s with document := some path }

def declared : List (Declared Settings) :=
  [ ⟨"spec", .value Settings.setDocument?⟩,
    ⟨"skip-config-check", .flag fun s => { s with skipConfigCheck := true }⟩,
    ⟨"dump-node-map", .flag fun s => { s with dumpNodeMap := true }⟩ ]

def usage : String :=
  "usage: bind-check --spec <SPEC> [--skip-config-check] [--dump-node-map]\n"

/-- The first stage that fails. -/
inductive Error
  | load (e : Document.LoadError)
  | design (e : Topology.Error)
  | engine (e : Engine.Error)
  deriving DecidableEq, Repr

def Error.message : Error → String
  | load e => e.message
  | design e => e.message
  | engine e => e.message

def Error.causes : Error → List String
  | load e => e.causes
  | design _ => []
  | engine e => e.causes

def bindDocument (files : Files) (configCheck : ConfigCheck) (path : String) :
    Except Error Binding :=
  match Document.load files path with
  | .error e => .error (.load e)
  | .ok document =>
    match Engine.build document.design configCheck with
    | .error e => .error (.design e)
    | .ok engine =>
      match engine.bind files document.network with
      | .error e => .error (.engine e)
      | .ok binding => .ok binding

def summary (binding : Binding) : String :=
  s!"bound nodes={binding.network.size} routers={binding.topology.routers.toNat} config=" ++
    binding.network.configPath

def report (files : Files) (settings : Settings) (path : String) : Report :=
  match bindDocument files settings.configCheck path with
  | .error e => .failed e.message e.causes
  | .ok binding =>
    .done (summary binding ++ "\n" ++ if settings.dumpNodeMap then binding.nodeMap else "")

def run (files : Files) (arguments : List String) : Report :=
  match applyAll declared .default arguments with
  | .error stop => .stopped stop usage
  | .ok settings =>
    match settings.document with
    | none => .stopped .misuse usage
    | some path => report files settings path

/-! ## Log -/

/-- The events of `bindDocument`, in their order. -/
def documentEvents (files : Files) (configCheck : ConfigCheck) (path : String) : List Log.Event :=
  Document.loading path ::
    match Document.load files path with
    | .error _ => []
    | .ok document =>
      match Engine.build document.design configCheck with
      | .error _ => []
      | .ok engine => engine.events files document.network

/-- The events of a run.  Nothing happens before the arguments have been understood. -/
def events (files : Files) (arguments : List String) : List Log.Event :=
  match applyAll declared .default arguments with
  | .error _ => []
  | .ok settings =>
    match settings.document with
    | none => []
    | some path => documentEvents files settings.configCheck path

def log (surroundings : Log.Surroundings) (files : Files) (arguments : List String) :
    List String :=
  surroundings.entries (.upTo .info) (events files arguments)

def standardError (surroundings : Log.Surroundings) (files : Files) (arguments : List String) :
    String :=
  (run files arguments).standardError (log surroundings files arguments)

end Interconnect.Command.Check
