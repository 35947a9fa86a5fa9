import Interconnect.Document.Record
import Interconnect.Json.Writer

/-!
# Networks in documents

A network is written as an object, or as an array of its two fields.  The path may be left out and
is then the default one.  Whether the path is blank is looked at last, when the closing bracket of
the network has been read.
-/

namespace Interconnect.Network

open Document
open Json (Ending Member Numeral Spelling Value)

/-! ## Writing -/

def routerValue (router : Int64) : Value :=
  .number (.ofInt router.toInt)

def toValue (network : Network) : Value :=
  let routers := Value.array (network.routerMap.toList.map routerValue) .closed
  .object
    [(.ofString "attached_router_id", routers),
      (.ofString "booksim_config", .string (.ofString network.configPath))]
    .closed

/-! ## Reading -/

def readRouters : Value → Result (Array Int64)
  | .array items ending => do
    let routers ← items.mapM readRouterId
    match ending with
    | .closed => return routers.toArray
    | .cut _ fault => rejectFault fault.read
  | value => rejectType .routerList value

def readPath : Value → Result String
  | .string spelling => readText spelling
  | value => rejectType .path value

/-- The fields of a network as far as they have been read. -/
structure Fields where
  routerMap : Option (Array Int64)
  configPath : Option String

def record : Record Fields where
  isKnown name := name == "attached_router_id" || name == "booksim_config"
  isSeen fields name :=
    (fields.routerMap.isSome && name == "attached_router_id") ||
      (fields.configPath.isSome && name == "booksim_config")
  accept fields name value := do
    if name == "attached_router_id" then
      return { fields with routerMap := some (← readRouters value) }
    else
      return { fields with configPath := some (← readPath value) }
  pass := skip
  passFault fault := fault.skipped

/-- The network with the given fields, unless its path is blank. -/
def ofFields (routerMap : Array Int64) (configPath : Option String) : Result Network :=
  match build routerMap (configPath.getD defaultConfigPath) with
  | .ok network => .ok network
  | .error e => rejectMismatch (.network e)

def ofMembers (members : List Member) (ending : Ending Json.ObjectRest) : Result Network := do
  let fields ← record.read ⟨none, none⟩ members ending
  match fields.routerMap with
  | none => rejectMismatch (.missingField "attached_router_id")
  | some routerMap => ofFields routerMap fields.configPath

def ofItems (items : List Value) (ending : Ending Json.ArrayRest) : Result Network := do
  let (first, items) ← nextItem .network 0 ending items
  let routerMap ← readRouters first
  let (second?, items) ← nextItem? ending items
  let configPath ← second?.mapM readPath
  endItems items ending
  ofFields routerMap configPath

def ofValue : Value → Result Network
  | .object members ending => ofMembers members ending
  | .array items ending => ofItems items ending
  | value => rejectType .network value

end Interconnect.Network
