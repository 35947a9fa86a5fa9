import Interconnect.Json.Value

/-!
# Reading JSON

A text is read one character at a time by `State.step`, so that reading a text is a fold and the
state after any prefix is known.  A state is made of the arrays and objects that are open
(`Frame`), and of what is being read inside the innermost one (`Mode`).  When the text ends, or
cannot be continued, `Scan` holds the value as far as it was read.

Objects need not be well formed in any other sense: keys may repeat, surrogates may stand alone,
and nesting may be as deep as the text is long.  Those who interpret the value decide about that.
-/

namespace Interconnect.Json

/-- What a text holds. -/
inductive Scan
  /-- No value at all, not even the beginning of an array or object. -/
  | nothing (fault : Break)
  /-- A value, possibly cut off, and whether anything but blanks follows it. -/
  | value (value : Value) (trailing : Bool)

/-- An array or object that awaits a value.  What it holds so far is listed last first. -/
inductive Frame
  | array (items : List Value)
  | object (members : List Member) (key : Spelling)

/-- An escape sequence in the course of being read. -/
inductive Escape
  | none
  | backslash
  /-- Four bytes of text belong to the escape; the code is known while they are hexadecimal. -/
  | hex (bytes : Nat) (code? : Option Nat)

/-- What a string is going to be. -/
inductive Role
  | value
  | key (members : List Member)

/-- The part of a numeral that has been read. -/
inductive Stage
  | sign
  | zero
  | whole
  | point
  | fraction
  | exponentMark
  | exponentSign
  | exponent
  deriving DecidableEq, Repr

inductive Mode
  /-- A value has to begin. -/
  | value
  /-- A bracket has been opened: an item or the closing bracket follows. -/
  | firstItem
  /-- An item has ended: a comma or the closing bracket follows. -/
  | afterItem (items : List Value)
  /-- A key has to begin, unless the object may still end. -/
  | key (mayClose : Bool) (members : List Member)
  /-- A key has ended: a colon follows. -/
  | colon (members : List Member) (key : Spelling)
  /-- A member has ended: a comma or the closing brace follows. -/
  | afterMember (members : List Member)
  /-- Inside a string, the pieces of which are listed last first. -/
  | string (role : Role) (pieces : Spelling) (escape : Escape)
  /-- Inside a literal word. -/
  | word (value : Value) (rest : List Char)
  /-- Inside a numeral, the digits of which are listed last first. -/
  | number (stage : Stage) (numeral : Numeral)

inductive State
  | reading (mode : Mode) (frames : List Frame)
  | finished (value : Value)
  | stopped (scan : Scan)

/-! ## Breaks -/

/-- The value that results when everything open is cut off around an inner value. -/
def closeFrames (fault : Break) (inner : Value) : List Frame → Value
  | [] => inner
  | .array items :: frames =>
    closeFrames fault (.array (inner :: items).reverse (.cut false fault)) frames
  | .object members key :: frames =>
    closeFrames fault (.object ((key, inner) :: members).reverse (.cut none fault)) frames

/-- Cuts off a value of which nothing can be kept. -/
def cutLeaf (fault : Break) : List Frame → Scan
  | [] => .nothing fault
  | .array items :: frames =>
    let array := .array items.reverse (.cut (!items.isEmpty) fault)
    .value (closeFrames fault array frames) false
  | .object members key :: frames =>
    let object := .object members.reverse (.cut (some key) fault)
    .value (closeFrames fault object frames) false

/-- Cuts off everything that is open. -/
def cut (fault : Break) (mode : Mode) (frames : List Frame) : Scan :=
  let array (items : List Value) : Scan :=
    .value (closeFrames fault (.array items.reverse (.cut false fault)) frames) false
  let object (members : List Member) (key? : Option Spelling) : Scan :=
    .value (closeFrames fault (.object members.reverse (.cut key? fault)) frames) false
  match mode with
  | .firstItem => array []
  | .afterItem items => array items
  | .key _ members => object members none
  | .string (.key members) .. => object members none
  | .colon members key => object members (some key)
  | .afterMember members => object members none
  | .string .value .. => cutLeaf fault frames
  | .value => cutLeaf fault frames
  | .word .. => cutLeaf fault frames
  | .number .. => cutLeaf fault frames

def malformed (mode : Mode) (frames : List Frame) : State :=
  .stopped (cut .malformed mode frames)

/-! ## Steps -/

def isSpace (c : Char) : Bool :=
  c == ' ' || c == '\t' || c == '\n' || c == '\r'

/-- Hands a finished value to the array or object that awaits it. -/
def complete (value : Value) : List Frame → State
  | [] => .finished value
  | .array items :: frames => .reading (.afterItem (value :: items)) frames
  | .object members key :: frames => .reading (.afterMember ((key, value) :: members)) frames

/-- Reads the first character of a value. -/
def begin (frames : List Frame) (c : Char) : State :=
  if c = '"' then .reading (.string .value [] .none) frames
  else if c = '[' then .reading .firstItem frames
  else if c = '\x7b' then .reading (.key true []) frames
  else if c = 'n' then .reading (.word .null ['u', 'l', 'l']) frames
  else if c = 't' then .reading (.word (.bool true) ['r', 'u', 'e']) frames
  else if c = 'f' then .reading (.word (.bool false) ['a', 'l', 's', 'e']) frames
  else if c = '-' then .reading (.number .sign ⟨true, [], [], false, []⟩) frames
  else if c = '0' then .reading (.number .zero ⟨false, [c], [], false, []⟩) frames
  else if c.isDigit then .reading (.number .whole ⟨false, [c], [], false, []⟩) frames
  else malformed .value frames

/-- Reads a character between values. -/
def separate (state : State) (c : Char) : State :=
  match state with
  | .finished value => if isSpace c then state else .stopped (.value value true)
  | .reading (.afterItem items) frames =>
    if isSpace c then state
    else if c = ',' then .reading .value (.array items :: frames)
    else if c = ']' then complete (.array items.reverse .closed) frames
    else malformed (.afterItem items) frames
  | .reading (.afterMember members) frames =>
    if isSpace c then state
    else if c = ',' then .reading (.key false members) frames
    else if c = '\x7d' then complete (.object members.reverse .closed) frames
    else malformed (.afterMember members) frames
  | _ => state

def hexValue? (c : Char) : Option Nat :=
  if c.isDigit then some (c.toNat - '0'.toNat)
  else if 'a' ≤ c ∧ c ≤ 'f' then some (c.toNat - 'a'.toNat + 10)
  else if 'A' ≤ c ∧ c ≤ 'F' then some (c.toNat - 'A'.toNat + 10)
  else none

/-- The character that a letter stands for after a backslash. -/
def escaped? (c : Char) : Option Char :=
  if c = '"' then some '"'
  else if c = '\\' then some '\\'
  else if c = '/' then some '/'
  else if c = 'b' then some '\x08'
  else if c = 'f' then some '\x0c'
  else if c = 'n' then some '\n'
  else if c = 'r' then some '\r'
  else if c = 't' then some '\t'
  else none

/-- The piece with the given 16-bit code. -/
def Piece.ofCode (code : Nat) : Piece :=
  if 0xD800 ≤ code ∧ code < 0xDC00 then .high (code - 0xD800)
  else if 0xDC00 ≤ code ∧ code < 0xE000 then .low (code - 0xDC00)
  else .char (Char.ofNat code)

/-- Hands a finished string on. -/
def completeString (role : Role) (spelling : Spelling) (frames : List Frame) : State :=
  match role with
  | .value => complete (.string spelling) frames
  | .key members => .reading (.colon members spelling) frames

/-- Reads a character inside a string. -/
def stepString (role : Role) (pieces : Spelling) (escape : Escape) (frames : List Frame)
    (c : Char) : State :=
  match escape with
  | .none =>
    if c = '"' then completeString role pieces.reverse frames
    else if c = '\\' then .reading (.string role pieces .backslash) frames
    else if c.toNat < 0x20 then malformed (.string role pieces escape) frames
    else .reading (.string role (.char c :: pieces) .none) frames
  | .backslash =>
    if c = 'u' then .reading (.string role pieces (.hex 0 (some 0))) frames
    else match escaped? c with
      | some d => .reading (.string role (.char d :: pieces) .none) frames
      | none => malformed (.string role pieces escape) frames
  | .hex bytes code? =>
    let bytes := bytes + c.utf8Size
    let code? := do return (← code?) * 16 + (← hexValue? c)
    if bytes < 4 then .reading (.string role pieces (.hex bytes code?)) frames
    else match code? with
      | some code => .reading (.string role (Piece.ofCode code :: pieces) .none) frames
      | none => malformed (.string role pieces escape) frames

namespace Stage

/-- Whether a numeral may end here. -/
def mayEnd : Stage → Bool
  | zero | whole | fraction | exponent => true
  | sign | point | exponentMark | exponentSign => false

/-- The next stage and numeral when the numeral goes on with a character. -/
def next? (stage : Stage) (n : Numeral) (c : Char) : Option (Stage × Numeral) :=
  match stage with
  | sign =>
    if c = '0' then some (zero, { n with whole := [c] })
    else if c.isDigit then some (whole, { n with whole := [c] })
    else none
  | zero =>
    if c = '.' then some (point, n)
    else if c = 'e' ∨ c = 'E' then some (exponentMark, n)
    else none
  | whole =>
    if c.isDigit then some (whole, { n with whole := c :: n.whole })
    else if c = '.' then some (point, n)
    else if c = 'e' ∨ c = 'E' then some (exponentMark, n)
    else none
  | point =>
    if c.isDigit then some (fraction, { n with fraction := [c] }) else none
  | fraction =>
    if c.isDigit then some (fraction, { n with fraction := c :: n.fraction })
    else if c = 'e' ∨ c = 'E' then some (exponentMark, n)
    else none
  | exponentMark =>
    if c = '+' then some (exponentSign, n)
    else if c = '-' then some (exponentSign, { n with exponentNegative := true })
    else if c.isDigit then some (exponent, { n with exponent := [c] })
    else none
  | exponentSign =>
    if c.isDigit then some (exponent, { n with exponent := [c] }) else none
  | exponent =>
    if c.isDigit then some (exponent, { n with exponent := c :: n.exponent }) else none

end Stage

/-- A numeral with its digits in the order of the text. -/
def Numeral.inOrder (n : Numeral) : Numeral :=
  { n with
    whole := n.whole.reverse
    fraction := n.fraction.reverse
    exponent := n.exponent.reverse }

/-- Reads a character inside or right after a numeral.  No digit follows a leading zero. -/
def stepNumber (stage : Stage) (n : Numeral) (frames : List Frame) (c : Char) : State :=
  match stage.next? n c with
  | some (stage, n) => .reading (.number stage n) frames
  | none =>
    if stage.mayEnd && !c.isDigit then separate (complete (.number n.inOrder) frames) c
    else malformed (.number stage n) frames

def State.step (state : State) (c : Char) : State :=
  match state with
  | .stopped _ => state
  | .finished _ => separate state c
  | .reading mode frames =>
    match mode with
    | .afterItem _ => separate state c
    | .afterMember _ => separate state c
    | .value => if isSpace c then state else begin frames c
    | .firstItem =>
      if isSpace c then state
      else if c = ']' then complete (.array [] .closed) frames
      else begin (.array [] :: frames) c
    | .key mayClose members =>
      if isSpace c then state
      else if c = '"' then .reading (.string (.key members) [] .none) frames
      else if c = '\x7d' && mayClose then complete (.object members.reverse .closed) frames
      else malformed mode frames
    | .colon members key =>
      if isSpace c then state
      else if c = ':' then .reading .value (.object members key :: frames)
      else malformed mode frames
    | .string role pieces escape => stepString role pieces escape frames c
    | .word value rest =>
      match rest with
      | [] => malformed mode frames
      | [d] => if c = d then complete value frames else malformed mode frames
      | d :: rest => if c = d then .reading (.word value rest) frames else malformed mode frames
    | .number stage n => stepNumber stage n frames c

/-! ## The end of the text -/

/-- The fault of a text that ends inside a mode.  A string that holds a lone surrogate is malformed
wherever it ends, but only for those who read it; an unfinished numeral counts as malformed for
those who pass over it. -/
def Mode.faultAtEnd : Mode → Break
  | .string _ pieces _ =>
    if Spelling.isCompletable pieces.reverse then .truncated else ⟨.malformed, .truncated⟩
  | .number .. => ⟨.truncated, .malformed⟩
  | _ => .truncated

def State.finish (state : State) : Scan :=
  match state with
  | .stopped scan => scan
  | .finished value => .value value false
  | .reading (.number stage n) frames =>
    if stage.mayEnd then
      match complete (.number n.inOrder) frames with
      | .reading mode frames => cut .truncated mode frames
      | .finished value => .value value false
      | .stopped scan => scan
    else cut (Mode.number stage n).faultAtEnd (.number stage n) frames
  | .reading mode frames => cut mode.faultAtEnd mode frames

def State.start : State :=
  .reading .value []

def scan (text : String) : Scan :=
  (text.foldl State.step State.start).finish

end Interconnect.Json
