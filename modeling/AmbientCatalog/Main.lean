import AmbientCatalog.CommandLine

/-!
# The program

Reads files from disk, prints the catalog, and reports errors on the error stream.
-/

set_option autoImplicit false

namespace AmbientCatalog.CommandLine

def readFromDisk (path : String) : IO (Except ReadError String) := do
  try
    let bytes ← IO.FS.readBinFile path
    return textOfBytes bytes.toList
  catch e =>
    return .error (.failed e.toString)

def usage : String :=
  "usage: [--files-from <list>] [--no-object-heritage] [--no-namespace-nodes] [files]"

def UsageError.message : UsageError → String
  | unknownArgument => "unknown argument"
  | invalidValue => "an argument needs a value"
  | argumentConflict => "an argument is given twice"
  | tooManyValues => "an argument takes no value"
  | displayHelp => usage
  | displayVersion => "0.1.0"

def UsageError.isRequest : UsageError → Bool
  | displayHelp => true
  | displayVersion => true
  | _ => false

end AmbientCatalog.CommandLine

open AmbientCatalog.CommandLine in
def main (arguments : List String) : IO UInt32 := do
  match parse arguments with
  | .error e =>
    if e.isRequest then
      IO.println e.message
      return 0
    else
      IO.eprintln (e.message ++ "\n" ++ usage)
      return 2
  | .ok invocation =>
    let directory ← IO.currentDir
    match ← run readFromDisk directory.toString invocation with
    | .ok output =>
      IO.print output
      return 0
    | .error e =>
      IO.eprintln ("Error: " ++ e.message)
      return 1
