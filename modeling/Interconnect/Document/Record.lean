import Interconnect.Document.Rejection

/-!
# Interpreting JSON values

Values are interpreted in the order of the text, and the first thing that is wrong is reported, be
it the shape of a value or a fault of the text.  A scalar is therefore read to its end before its
type is looked at, an array or object only as far as it is wanted, and the fields of a record one by
one.
-/

namespace Interconnect.Document

open Json (Break Ending Fault Member Spelling Value)

/-- The outcome of interpreting a value. -/
abbrev Result := Except Rejection

def rejectFault {α : Type} (fault : Fault) : Result α :=
  .error (.fault fault)

def rejectMismatch {α : Type} (mismatch : Mismatch) : Result α :=
  .error (.mismatch mismatch)

/-! ## Scalars -/

def readText (spelling : Spelling) : Result String :=
  match spelling.text? with
  | some text => .ok text
  | none => rejectFault .malformed

def readNumber (numeral : Json.Numeral) : Result Json.Number :=
  match numeral.number? with
  | some number => .ok number
  | none => rejectFault .malformed

def found : Value → Result Found
  | .null => .ok .null
  | .bool b => .ok (.boolean b)
  | .number numeral => do
    match ← readNumber numeral with
    | .unsigned n => return .integer n.toNat
    | .negative i => return .integer i.toInt
    | .float bits => return .float bits
  | .string spelling => return .text (← readText spelling)
  | .array .. => .ok .sequence
  | .object .. => .ok .map

/-- Rejects a value of a type that is not wanted. -/
def rejectType {α : Type} (wanted : Wanted) (value : Value) : Result α := do
  rejectMismatch (.wrongType (← found value) wanted)

def readCount : Value → Result UInt64
  | .number numeral => do
    match ← readNumber numeral with
    | .unsigned n => return n
    | .negative i => rejectMismatch (.outOfRange i.toInt .count)
    | .float bits => rejectMismatch (.wrongType (.float bits) .count)
  | value => rejectType .count value

def readRouterId : Value → Result Int64
  | .number numeral => do
    match ← readNumber numeral with
    | .unsigned n =>
      if n.toNat < Word.signedSize then return n.toInt64
      else rejectMismatch (.outOfRange n.toNat .routerId)
    | .negative i => return i
    | .float bits => rejectMismatch (.wrongType (.float bits) .routerId)
  | value => rejectType .routerId value

def readVersion : Value → Result UInt32
  | .number numeral => do
    match ← readNumber numeral with
    | .unsigned n =>
      if n.toNat < UInt32.size then return n.toUInt32
      else rejectMismatch (.outOfRange n.toNat .version)
    | .negative i => rejectMismatch (.outOfRange i.toInt .version)
    | .float bits => rejectMismatch (.wrongType (.float bits) .version)
  | value => rejectType .version value

/-! ## Arrays as records -/

/-- The field at an index of a record that is written as an array, and the items after it. -/
def nextItem (part : Part) (index : Nat) (ending : Ending Json.ArrayRest) :
    List Value → Result (Value × List Value)
  | item :: items => .ok (item, items)
  | [] =>
    match ending with
    | .closed => rejectMismatch (.tooShort index part)
    | .cut _ fault => rejectFault fault.read

/-- Like `nextItem`, for a field that may be left out at the end. -/
def nextItem? (ending : Ending Json.ArrayRest) : List Value → Result (Option Value × List Value)
  | item :: items => .ok (some item, items)
  | [] =>
    match ending with
    | .closed => .ok (none, [])
    | .cut _ fault => rejectFault fault.read

/-- After its last field a record has to end; a comma is one item too many. -/
def endItems (items : List Value) (ending : Ending Json.ArrayRest) : Result Unit :=
  match items, ending with
  | [], .closed => .ok ()
  | [], .cut false fault => rejectFault fault.read
  | [], .cut true _ => rejectFault .malformed
  | _ :: _, _ => rejectFault .malformed

/-! ## Objects as records -/

/-- How the members of one kind of object are taken in, given what was taken in before. -/
structure Record (Fields : Type) where
  isKnown : String → Bool
  isSeen : Fields → String → Bool
  /-- Takes in the value of a known field. -/
  accept : Fields → String → Value → Result Fields
  /-- Looks at the value of an unknown field. -/
  pass : Value → Result Unit
  /-- The fault that a break in the value of an unknown field counts as. -/
  passFault : Break → Fault

namespace Record

variable {Fields : Type} (record : Record Fields)

/-- A repeated field is rejected as soon as its key has been read. -/
def acceptKey (fields : Fields) (key : Spelling) : Result String := do
  let name ← readText key
  if record.isSeen fields name then rejectMismatch (.repeatedField name)
  return name

def step (fields : Fields) (member : Member) : Result Fields := do
  let name ← record.acceptKey fields member.1
  if record.isKnown name then
    record.accept fields name member.2
  else
    record.pass member.2
    return fields

def finish (fields : Fields) : Ending Json.ObjectRest → Result Fields
  | .closed => .ok fields
  | .cut none fault => rejectFault fault.read
  | .cut (some key) fault => do
    let name ← record.acceptKey fields key
    rejectFault (if record.isKnown name then fault.read else record.passFault fault)

def read (fields : Fields) (members : List Member) (ending : Ending Json.ObjectRest) :
    Result Fields := do
  record.finish (← members.foldlM record.step fields) ending

end Record

/-! ## Values that nobody asked for -/

/-- Passes over a value: it only has to be JSON. -/
def skip : Value → Result Unit
  | .array _ (.cut _ fault) => rejectFault fault.skipped
  | .object _ (.cut _ fault) => rejectFault fault.skipped
  | _ => .ok ()

/-- Arrays and objects that are read are nested no deeper than this. -/
def maxNesting : Nat := 127

mutual

/-- The first fault of a value that is read in full; `depth` counts the arrays and objects open
once the value is. -/
def firstFault? (depth : Nat) : Value → Option Fault
  | .null => none
  | .bool _ => none
  | .number numeral => if numeral.number?.isSome then none else some .malformed
  | .string spelling => if spelling.text?.isSome then none else some .malformed
  | .array items ending =>
    if maxNesting < depth then some .malformed
    else match firstItemFault? (depth + 1) items, ending with
      | some fault, _ => some fault
      | none, .closed => none
      | none, .cut _ fault => some fault.read
  | .object members ending =>
    if maxNesting < depth then some .malformed
    else match firstMemberFault? (depth + 1) members, ending with
      | some fault, _ => some fault
      | none, .closed => none
      | none, .cut none fault => some fault.read
      | none, .cut (some key) fault => if key.text?.isSome then some fault.read else some .malformed

def firstItemFault? (depth : Nat) : List Value → Option Fault
  | [] => none
  | item :: items =>
    match firstFault? depth item with
    | some fault => some fault
    | none => firstItemFault? depth items

def firstMemberFault? (depth : Nat) : List Member → Option Fault
  | [] => none
  | (key, value) :: members =>
    if key.text?.isSome then
      match firstFault? depth value with
      | some fault => some fault
      | none => firstMemberFault? depth members
    else some .malformed

end

/-- Reads a value in full, although nobody asked for it. -/
def readWhole (depth : Nat) (value : Value) : Result Unit :=
  match firstFault? depth value with
  | some fault => rejectFault fault
  | none => .ok ()

end Interconnect.Document
