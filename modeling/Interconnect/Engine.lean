import Interconnect.Binding
import Interconnect.Files.Basic
import Interconnect.Text.Quoted

/-!
# Engines

An engine binds networks to one topology.  Unless it is told to skip the check, it also wants the
configuration file of the network to be a regular file; this is looked at only when the network
fits.
-/

namespace Interconnect

inductive ConfigCheck
  | require
  | skip
  deriving DecidableEq, Repr

structure Engine where
  topology : Topology
  configCheck : ConfigCheck

namespace Engine

/-- An engine for a design, which requires configuration files unless told otherwise. -/
def build (design : Design) (configCheck : ConfigCheck := .require) :
    Except Topology.Error Engine :=
  design.build.map fun topology => ⟨topology, configCheck⟩

inductive Error
  | unfit (e : Binding.Error)
  | config (path : String) (fault : Files.Fault)
  deriving DecidableEq, Repr

def Error.message : Error → String
  | unfit e => e.message
  | config path _ => "booksim config " ++ Text.quoted path ++ " is not readable"

def Error.causes : Error → List String
  | unfit _ => []
  | config _ fault => [fault.description]

/-- Checks the configuration file of a network, if the engine wants it. -/
def checkConfig (engine : Engine) (files : Files) (network : Network) : Except Error Unit :=
  match engine.configCheck with
  | .skip => .ok ()
  | .require =>
    match files.checkRegular network.configPath with
    | .ok () => .ok ()
    | .error fault => .error (.config network.configPath fault)

def bind (engine : Engine) (files : Files) (network : Network) : Except Error Binding :=
  match Binding.attach network engine.topology with
  | .error e => .error (.unfit e)
  | .ok binding =>
    match engine.checkConfig files network with
    | .error e => .error e
    | .ok () => .ok binding

/-! ## Events -/

/-- The work of binding a network. -/
def span (network : Network) : Log.Span where
  name := "build"
  fields := [("nodes", toString network.size), ("config", network.configPath)]

def Error.title : Error → String
  | unfit _ => "router map rejected"
  | config .. => "booksim config check failed"

def Error.warning (e : Error) : Log.Event where
  level := .warn
  message := e.title
  fields := [("error", e.message)]
  span? := none

def bound (binding : Binding) : Log.Event where
  level := .info
  message := "network bound"
  fields :=
    [ ("nodes", toString binding.network.size),
      ("routers", toString binding.topology.routers) ]
  span? := none

/-- The events of `bind`, in their order. -/
def events (engine : Engine) (files : Files) (network : Network) : List Log.Event :=
  List.map (·.within (span network)) <|
    match Binding.attach network engine.topology with
    | .error e => [(Error.unfit e).warning]
    | .ok binding =>
      match engine.checkConfig files network with
      | .error e => binding.events ++ [e.warning]
      | .ok () => binding.events ++ [bound binding]

end Engine

end Interconnect
