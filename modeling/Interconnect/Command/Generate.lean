import Interconnect.Command.Report
import Interconnect.Document.Basic
import Interconnect.Log

/-!
# Generating a document

The command `router-map` prints a document in which every node of a topology is attached to its
customary router.  It logs nothing unless it is asked to.
-/

namespace Interconnect.Command.Generate

open Interconnect.Topology (Kind)

structure Settings where
  kind : Option Kind
  radix : UInt64
  dimension : UInt64
  concentration : UInt64
  routers : UInt64
  nodes : UInt64
  configPath : String
  /-- Asks for a log on standard error, ahead of the report. -/
  verbose : Bool
  deriving DecidableEq, Repr

def Settings.default : Settings where
  kind := none
  radix := 4
  dimension := 2
  concentration := 1
  routers := 1
  nodes := 1
  configPath := Network.defaultConfigPath
  verbose := false

/-- The name of a kind on the command line. -/
def kindOption : Kind → String
  | .fatTree => "fat-tree"
  | kind => kind.name

def declared : List (Declared Settings) :=
  [ ⟨"topology", .value fun s text =>
      (Kind.all.find? (kindOption · == text)).map fun kind => { s with kind := some kind }⟩,
    ⟨"k", .value fun s text => (word? text).map fun n => { s with radix := n }⟩,
    ⟨"n", .value fun s text => (word? text).map fun n => { s with dimension := n }⟩,
    ⟨"concentration", .value fun s text =>
      (word? text).map fun n => { s with concentration := n }⟩,
    ⟨"routers", .value fun s text => (word? text).map fun n => { s with routers := n }⟩,
    ⟨"nodes", .value fun s text => (word? text).map fun n => { s with nodes := n }⟩,
    ⟨"booksim-config", .value fun s text => some { s with configPath := text }⟩,
    ⟨"verbose", .flag fun s => { s with verbose := true }⟩ ]

def usage : String :=
  "usage: router-map --topology <mesh|torus|fat-tree|dumbbell|custom> [--k <K>] [--n <N>]\n" ++
  "         [--concentration <C>] [--routers <R>] [--nodes <N>] [--booksim-config <PATH>]\n" ++
  "         [--verbose]\n"

/-- The design that the settings ask for; each kind looks at its own parameters only. -/
def Settings.design (s : Settings) : Kind → Design
  | .mesh => .mesh s.radix s.dimension s.concentration
  | .torus => .torus s.radix s.dimension s.concentration
  | .fatTree => .fatTree s.radix
  | .dumbbell => .dumbbell
  | .custom => .custom s.routers s.nodes

/-- The report on a design and a configuration path.  A bad design is named before a bad path. -/
def report (design : Design) (configPath : String) : Report :=
  match design.defaultRouterMap with
  | .error e => .failed e.message []
  | .ok routerMap =>
    match Network.build routerMap configPath with
    | .error e => .failed e.message []
    | .ok network => .done ((Document.current design network).toValue.indented ++ "\n")

def run (arguments : List String) : Report :=
  match applyAll declared .default arguments with
  | .error stop => .stopped stop usage
  | .ok settings =>
    match settings.kind with
    | none => .stopped .misuse usage
    | some kind => report (settings.design kind) settings.configPath

/-! ## Log -/

def generated (design : Design) (routerMap : Array Int64) : Log.Event where
  level := .info
  message := "generated router map"
  fields := [("kind", design.kind.name), ("nodes", toString routerMap.size)]
  span? := none

/-- The events of a report on a design, which happen before its path is looked at. -/
def designEvents (design : Design) : List Log.Event :=
  match design.defaultRouterMap with
  | .error _ => []
  | .ok routerMap => [generated design routerMap]

/-- Without the flag nothing is logged, whatever the surroundings ask for. -/
def log (surroundings : Log.Surroundings) (arguments : List String) : List String :=
  match applyAll declared .default arguments with
  | .error _ => []
  | .ok settings =>
    match settings.kind with
    | none => []
    | some kind =>
      if settings.verbose then
        surroundings.entries (.upTo .info) (designEvents (settings.design kind))
      else []

def standardError (surroundings : Log.Surroundings) (arguments : List String) : String :=
  (run arguments).standardError (log surroundings arguments)

end Interconnect.Command.Generate
