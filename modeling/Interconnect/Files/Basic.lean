/-!
# Files as a program sees them

For a program that only reads, the state of the file system is what each path leads to: a file with
its bytes, a directory, or a reason why it leads nowhere.
-/

namespace Interconnect.Files

/-- Why a file cannot be read or used. -/
inductive Fault
  | notFound
  | isDirectory
  | notDirectory
  | nameTooLong
  | invalidPath
  | denied
  | notRegular
  | notText
  deriving DecidableEq, Repr

def Fault.description : Fault → String
  | notFound => "No such file or directory (os error 2)"
  | isDirectory => "Is a directory (os error 21)"
  | notDirectory => "Not a directory (os error 20)"
  | nameTooLong => "File name too long (os error 36)"
  | invalidPath => "file name contained an unexpected NUL byte"
  | denied => "Permission denied (os error 13)"
  | notRegular => "not a regular file"
  | notText => "stream did not contain valid UTF-8"

/-- What a path leads to. -/
inductive Entry
  | file (content : ByteArray)
  | directory

end Interconnect.Files

namespace Interconnect

/-- The state of a file system: what each path leads to. -/
structure Files where
  lookup : String → Except Files.Fault Files.Entry

namespace Files

/-- The content of a text file. -/
def readText (files : Files) (path : String) : Except Fault String :=
  match files.lookup path with
  | .error fault => .error fault
  | .ok .directory => .error .isDirectory
  | .ok (.file content) =>
    match String.fromUTF8? content with
    | some text => .ok text
    | none => .error .notText

/-- Whether a path leads to a regular file. -/
def checkRegular (files : Files) (path : String) : Except Fault Unit :=
  match files.lookup path with
  | .error fault => .error fault
  | .ok .directory => .error .notRegular
  | .ok (.file _) => .ok ()

end Files

end Interconnect
