import Interconnect.Document.Design
import Interconnect.Document.Network
import Interconnect.Json.Reader

/-!
# Documents

A document holds a design together with the network that attaches nodes to its routers, and the
version of the format it is written in.  `Document.read` accepts any version; whether the version is
supported is the concern of those who load a document.
-/

namespace Interconnect

open Document
open Json (Ending Member Spelling Value)

structure Document where
  version : UInt32
  design : Design
  network : Network
  deriving DecidableEq

namespace Document

/-- The version of the format that is written, and the only one that is supported. -/
def currentVersion : UInt32 := 1

/-- A document in the current version of the format. -/
def current (design : Design) (network : Network) : Document :=
  ⟨currentVersion, design, network⟩

/-! ## Writing -/

def toValue (document : Document) : Value :=
  .object
    [(.ofString "schema_version", .number (.ofNat document.version.toNat)),
      (.ofString "topology", document.design.toValue),
      (.ofString "network", document.network.toValue)]
    .closed

/-! ## Reading -/

/-- The fields of a document as far as they have been read. -/
structure Fields where
  version : Option UInt32
  design : Option Design
  network : Option Network

def record : Record Fields where
  isKnown name := name == "schema_version" || name == "topology" || name == "network"
  isSeen fields name :=
    (fields.version.isSome && name == "schema_version") ||
      (fields.design.isSome && name == "topology") ||
      (fields.network.isSome && name == "network")
  accept fields name value := do
    if name == "schema_version" then
      return { fields with version := some (← readVersion value) }
    else if name == "topology" then
      return { fields with design := some (← Design.ofValue 2 value) }
    else
      return { fields with network := some (← Network.ofValue value) }
  pass := skip
  passFault fault := fault.skipped

def field {α : Type} (name : String) : Option α → Result α
  | some a => .ok a
  | none => rejectMismatch (.missingField name)

def ofMembers (members : List Member) (ending : Ending Json.ObjectRest) : Result Document := do
  let fields ← record.read ⟨none, none, none⟩ members ending
  let version ← field "schema_version" fields.version
  let design ← field "topology" fields.design
  let network ← field "network" fields.network
  return ⟨version, design, network⟩

def ofItems (items : List Value) (ending : Ending Json.ArrayRest) : Result Document := do
  let (first, items) ← nextItem .document 0 ending items
  let version ← readVersion first
  let (second, items) ← nextItem .document 1 ending items
  let design ← Design.ofValue 2 second
  let (third, items) ← nextItem .document 2 ending items
  let network ← Network.ofValue third
  endItems items ending
  return ⟨version, design, network⟩

def ofValue : Value → Result Document
  | .object members ending => ofMembers members ending
  | .array items ending => ofItems items ending
  | value => rejectType .document value

/-- Interprets the value that a text holds.  What follows the value is looked at last. -/
def interpret {α : Type} (ofValue : Value → Result α) (text : String) : Result α :=
  match Json.scan text with
  | .nothing fault => rejectFault fault.read
  | .value value trailing => do
    let a ← ofValue value
    if trailing then rejectFault .malformed
    return a

def read (text : String) : Result Document :=
  interpret ofValue text

end Document

/-- Reads a text that holds a design alone. -/
def Design.read (text : String) : Result Design :=
  interpret (Design.ofValue 1) text

/-- Reads a text that holds a network alone. -/
def Network.read (text : String) : Result Network :=
  interpret Network.ofValue text

end Interconnect
