import Interconnect.Json.Number
import Interconnect.Network
import Interconnect.Text.Quoted
import Interconnect.Topology.Error

/-!
# Why a document is rejected

A document is rejected because its text is not JSON, or because the JSON does not have the shape of
a document.  A `Mismatch` names what is wrong with the shape, and `Mismatch.message` words it.
-/

namespace Interconnect.Document

open Json (Fault)
open Interconnect.Topology (Kind)

/-- A value as it is described to somebody who wanted another. -/
inductive Found
  | null
  | boolean (b : Bool)
  | integer (i : Int)
  /-- A binary64 number, by its bits. -/
  | float (bits : UInt64)
  | text (text : String)
  | sequence
  | map
  deriving DecidableEq, Repr

def Found.description : Found → String
  | null => "null"
  | boolean b => s!"boolean `{b}`"
  | integer i => s!"integer `{i}`"
  | float bits => "floating point `" ++ Json.Number.floatText bits ++ "`"
  | text t => "string " ++ Text.quoted t
  | sequence => "sequence"
  | map => "map"

/-- What is wanted at a place of a document. -/
inductive Wanted
  | count
  | routerId
  | version
  | routerList
  | path
  | kind
  | design
  | network
  | document
  deriving DecidableEq, Repr

def Wanted.description : Wanted → String
  | count => "usize"
  | routerId => "i64"
  | version => "u32"
  | routerList => "a sequence"
  | path => "a string"
  | kind => "variant identifier"
  | design => "internally tagged enum TopologySpec"
  | network => "struct RawDescriptor"
  | document => "struct NetworkSpec"

/-- A part of a document that may also be written as an array of its fields. -/
inductive Part
  | design (kind : Kind)
  | network
  | document
  deriving DecidableEq, Repr

def Part.description : Part → String
  | design .mesh => "struct variant TopologySpec::Mesh with 3 elements"
  | design .torus => "struct variant TopologySpec::Torus with 3 elements"
  | design .fatTree => "struct variant TopologySpec::FatTree with 1 element"
  | design .dumbbell => "unit variant TopologySpec::Dumbbell"
  | design .custom => "struct variant TopologySpec::Custom with 2 elements"
  | network => "struct RawDescriptor with 2 elements"
  | document => "struct NetworkSpec with 3 elements"

/-- How a JSON value fails to be a document, or a part of one. -/
inductive Mismatch
  | wrongType (found : Found) (wanted : Wanted)
  | outOfRange (i : Int) (wanted : Wanted)
  | missingField (name : String)
  | repeatedField (name : String)
  | unknownKind (name : String)
  | tooShort (length : Nat) (part : Part)
  | tooLong (length fields : Nat)
  | network (e : Network.Error)
  deriving DecidableEq, Repr

/-- The kinds of topology, as they are listed to a reader. -/
def kindList : String :=
  ", ".intercalate (Kind.all.map fun kind => "`" ++ kind.name ++ "`")

def Mismatch.message : Mismatch → String
  | wrongType found wanted =>
    "invalid type: " ++ found.description ++ ", expected " ++ wanted.description
  | outOfRange i wanted =>
    s!"invalid value: integer `{i}`, expected " ++ wanted.description
  | missingField name => s!"missing field `{name}`"
  | repeatedField name => s!"duplicate field `{name}`"
  | unknownKind name => s!"unknown variant `{name}`, expected one of " ++ kindList
  | tooShort length part => s!"invalid length {length}, expected " ++ part.description
  | tooLong length fields =>
    let elements := if fields = 1 then "element" else "elements"
    s!"invalid length {length}, expected {fields} {elements} in sequence"
  | network e => e.message

/-- Why a document is rejected. -/
inductive Rejection
  | fault (fault : Fault)
  | mismatch (mismatch : Mismatch)
  deriving DecidableEq, Repr

end Interconnect.Document
