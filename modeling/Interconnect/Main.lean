import Interconnect.Command.Check
import Interconnect.Command.Generate

/-!
# The command line

`router-map` and `bind-check` are subcommands.  The files that a check looks at are read before it
runs: the document, and the configuration file that the document names.  Which events are logged is
left to the commands.
-/

namespace Interconnect.Command

/-- Finds out what a path leads to. -/
def observe (path : String) : IO (Except Files.Fault Files.Entry) := do
  try
    return .ok (.file (← IO.FS.readBinFile path))
  catch
    | .noFileOrDirectory .. => return .error .notFound
    | .inappropriateType none .. => return .ok .directory
    | .inappropriateType (some _) .. => return .error .notDirectory
    | .invalidArgument _ 22 _ => return .error .invalidPath
    | .invalidArgument .. => return .error .nameTooLong
    | _ => return .error .denied

/-- The files that a check with the given arguments looks at. -/
def observeFor (arguments : List String) : IO Files := do
  let path := match applyAll Check.declared .default arguments with
    | .ok settings => settings.document.getD ""
    | .error _ => ""
  let document ← observe path
  let known : Files := ⟨fun p => if p = path then document else .error .notFound⟩
  match Document.load known path with
  | .error _ => return known
  | .ok d =>
    let config ← observe d.network.configPath
    return ⟨fun p => if p = path then document else config⟩

def usage : String :=
  Generate.usage ++ Check.usage

def levelName : Log.Level → String
  | .warn => "WARN"
  | .info => "INFO"
  | .debug => "DEBUG"

def fieldTexts (fields : Log.Fields) : List String :=
  fields.map fun (name, text) => name ++ "=" ++ text

def spanTexts : Option Log.Span → List String
  | none => []
  | some span => [span.name ++ "(" ++ " ".intercalate (fieldTexts span.fields) ++ "):"]

def eventText (event : Log.Event) : String :=
  " ".intercalate
    (levelName event.level :: spanTexts event.span? ++ event.message :: fieldTexts event.fields)

def surroundings : Log.Surroundings where
  filter? := none
  render _ := eventText

/-- The report on a run, and what stands on standard error. -/
def dispatch : List String → IO (Report × String)
  | "router-map" :: arguments =>
    return (Generate.run arguments, Generate.standardError surroundings arguments)
  | "bind-check" :: arguments => do
    let files ← observeFor arguments
    return (Check.run files arguments, Check.standardError surroundings files arguments)
  | _ => return (.stopped .misuse usage, Report.standardError (.stopped .misuse usage) [])

end Interconnect.Command

def main (arguments : List String) : IO UInt32 := do
  let (report, standardError) ← Interconnect.Command.dispatch arguments
  IO.print report.output
  IO.eprint standardError
  return report.exitCode.toUInt32
