import Interconnect.Document.Record
import Interconnect.Json.Writer
import Interconnect.Topology.Basic

/-!
# Designs in documents

A design is written as an object with its kind and its parameters, or as an array that begins with
the kind.  Which parameters there are depends on the kind, and the kind may stand anywhere in the
object; so the whole object is read before its parameters are interpreted.
-/

namespace Interconnect

open Document
open Json (Ending Member Numeral Spelling Value)
open Interconnect.Topology (Kind)

/-- The names of the parameters, in the order in which an array lists them. -/
def Topology.Kind.fields : Kind → List String
  | .mesh => ["k", "n", "concentration"]
  | .torus => ["k", "n", "concentration"]
  | .fatTree => ["k"]
  | .dumbbell => []
  | .custom => ["routers", "nodes"]

/-- How many parameters cannot be left out; the others come last. -/
def Topology.Kind.required : Kind → Nat
  | .mesh => 2
  | .torus => 2
  | .fatTree => 1
  | .dumbbell => 0
  | .custom => 2

namespace Design

/-! ## Writing -/

def countValue (n : UInt64) : Value :=
  .number (.ofNat n.toNat)

/-- The parameters with their names. -/
def parameters : Design → List (String × UInt64)
  | mesh radix dimension concentration =>
    [("k", radix), ("n", dimension), ("concentration", concentration)]
  | torus radix dimension concentration =>
    [("k", radix), ("n", dimension), ("concentration", concentration)]
  | fatTree arity => [("k", arity)]
  | dumbbell => []
  | custom routers nodes => [("routers", routers), ("nodes", nodes)]

def toValue (design : Design) : Value :=
  let kind := (Spelling.ofString "kind", Value.string (.ofString design.kind.name))
  let parameters := design.parameters.map fun (name, n) => (Spelling.ofString name, countValue n)
  .object (kind :: parameters) .closed

/-! ## Reading -/

def readKind : Value → Result Kind
  | .string spelling => do
    let name ← readText spelling
    match Kind.ofName? name with
    | some kind => return kind
    | none => rejectMismatch (.unknownKind name)
  | value => rejectType .kind value

/-- Finds the kind among the members, and reads all others in full. -/
def kindRecord (depth : Nat) : Record (Option Kind) where
  isKnown name := name == "kind"
  isSeen kind? name := kind?.isSome && name == "kind"
  accept _ _ value := return some (← readKind value)
  pass value := readWhole (depth + 1) value
  passFault fault := fault.read

/-- Takes in the parameters of a kind, and ignores all other members. -/
def parameterRecord (kind : Kind) : Record (List (String × UInt64)) where
  isKnown name := kind.fields.contains name
  isSeen parameters name := parameters.any (·.1 == name)
  accept parameters name value := return parameters ++ [(name, ← readCount value)]
  pass _ := .ok ()
  passFault fault := fault.read

def parameter (parameters : List (String × UInt64)) (name : String) : Result UInt64 :=
  match parameters.lookup name with
  | some n => .ok n
  | none => rejectMismatch (.missingField name)

/-- The design with the given parameters; a cube has one node on each router unless told
otherwise. -/
def ofParameters (kind : Kind) (parameters : List (String × UInt64)) : Result Design :=
  let concentration := (parameters.lookup "concentration").getD 1
  match kind with
  | .mesh => do
    return .mesh (← parameter parameters "k") (← parameter parameters "n") concentration
  | .torus => do
    return .torus (← parameter parameters "k") (← parameter parameters "n") concentration
  | .fatTree => do
    return .fatTree (← parameter parameters "k")
  | .dumbbell => .ok .dumbbell
  | .custom => do
    return .custom (← parameter parameters "routers") (← parameter parameters "nodes")

def isKindKey (member : Member) : Bool :=
  member.1.text? == some "kind"

def ofMembers (depth : Nat) (members : List Member) (ending : Ending Json.ObjectRest) :
    Result Design := do
  match ← (kindRecord depth).read none members ending with
  | none => rejectMismatch (.missingField "kind")
  | some kind =>
    let others := members.filter (!isKindKey ·)
    ofParameters kind (← (parameterRecord kind).read [] others .closed)

/-- Reads the parameters that follow the kind in an array. -/
def ofItems (kind : Kind) (items : List Value) : Result Design := do
  let counts ← (items.take kind.fields.length).mapM readCount
  if items.length < kind.required then
    rejectMismatch (.tooShort items.length (.design kind))
  if kind.fields.length < items.length then
    rejectMismatch (.tooLong items.length kind.fields.length)
  ofParameters kind (kind.fields.zip counts)

/-- Reads a design; `depth` counts the arrays and objects open once the design is. -/
def ofValue (depth : Nat) : Value → Result Design
  | .object members ending => ofMembers depth members ending
  | .array [] .closed => rejectMismatch (.missingField "kind")
  | .array [] (.cut _ fault) => rejectFault fault.read
  | .array (first :: items) ending => do
    let kind ← readKind first
    readWhole depth (.array items ending)
    ofItems kind items
  | value => rejectType .design value

end Design

end Interconnect
