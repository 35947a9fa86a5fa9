/-!
# Options of a command

A command takes options by their full names, and nothing else.  An option with a value takes it
either from its own argument, after an equals sign, or from the next argument.  No option is given
twice.  A lone double dash ends the options.
-/

namespace Interconnect.Command

/-- What an option does to the settings of a command. -/
inductive Action (Settings : Type)
  | flag (apply : Settings → Settings)
  /-- The value may be refused. -/
  | value (assign? : Settings → String → Option Settings)

structure Declared (Settings : Type) where
  name : String
  action : Action Settings

/-- Why the arguments do not make a run of the command. -/
inductive Stop
  | misuse
  | help
  deriving DecidableEq, Repr

/-- An argument that is neither an option nor the end of the options. -/
def isOption (argument : String) : Bool :=
  argument.startsWith "--"

/-- Whether an argument can be the value of the option before it.  A single dash is a value. -/
def mayBeValue (argument : String) : Bool :=
  !argument.startsWith "-" || argument == "-"

/-- The name of an option, and the value in the same argument if there is one. -/
def splitOption (argument : String) : String × Option String :=
  let chars := argument.toList.drop 2
  let name := chars.takeWhile (· != '=')
  let rest := chars.dropWhile (· != '=')
  (String.ofList name, if rest.isEmpty then none else some (String.ofList (rest.drop 1)))

variable {Settings : Type}

/-- What has been made of the arguments so far. -/
structure Progress (Settings : Type) where
  settings : Settings
  /-- The names of the options given so far. -/
  given : List String
  /-- What the next argument is the value of. -/
  awaiting : Option (Settings → String → Option Settings)

namespace Progress

def start (settings : Settings) : Progress Settings :=
  ⟨settings, [], none⟩

def takeValue (progress : Progress Settings) (assign? : Settings → String → Option Settings)
    (value : String) : Except Stop (Progress Settings) :=
  match assign? progress.settings value with
  | some settings => .ok { progress with settings, awaiting := none }
  | none => .error .misuse

def takeOption (declared : List (Declared Settings)) (progress : Progress Settings)
    (argument : String) : Except Stop (Progress Settings) :=
  let (name, value?) := splitOption argument
  match declared.find? (·.name == name) with
  | none => .error (if argument = "--help" then .help else .misuse)
  | some option =>
    if progress.given.contains name then .error .misuse
    else
      let progress := { progress with given := name :: progress.given }
      match option.action, value? with
      | .flag apply, none => .ok { progress with settings := apply progress.settings }
      | .flag _, some _ => .error .misuse
      | .value assign?, some value => progress.takeValue assign? value
      | .value assign?, none => .ok { progress with awaiting := some assign? }

/-- Takes in one argument. -/
def take (declared : List (Declared Settings)) (progress : Progress Settings)
    (argument : String) : Except Stop (Progress Settings) :=
  match progress.awaiting with
  | some assign? =>
    if mayBeValue argument then progress.takeValue assign? argument else .error .misuse
  | none =>
    if isOption argument then progress.takeOption declared argument
    else .error (if argument = "-h" then .help else .misuse)

def finish (progress : Progress Settings) : Except Stop Settings :=
  match progress.awaiting with
  | some _ => .error .misuse
  | none => .ok progress.settings

end Progress

/-- The arguments without the double dash that may end them. -/
def options (arguments : List String) : List String :=
  if arguments.getLast? = some "--" then arguments.dropLast else arguments

/-- Applies arguments to settings, from left to right. -/
def applyAll (declared : List (Declared Settings)) (settings : Settings)
    (arguments : List String) : Except Stop Settings := do
  (← (options arguments).foldlM (Progress.take declared) (.start settings)).finish

/-- A decimal number of 64 bits, with or without a plus sign. -/
def word? (text : String) : Option UInt64 :=
  let digits := match text.toList with
    | '+' :: digits => digits
    | digits => digits
  if digits.isEmpty || !digits.all Char.isDigit then none
  else
    let n := Nat.ofDigitChars 10 digits 0
    if n < UInt64.size then some (UInt64.ofNat n) else none

end Interconnect.Command
