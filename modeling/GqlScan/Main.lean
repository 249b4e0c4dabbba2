import GqlScan.Cli

/-!
# Running the program

The outermost layer: it looks at the paths that a call consults, hands what it finds there to
`Cli.run`, and prints the report. It starts no other program, so a launch of the code generator
fails here the way it does on a system that cannot start one. The library that reads YAML is its
caller's.
-/

namespace GqlScan.Program

/-- What is found at a path. What cannot be read counts as missing. -/
def look (p : Path) : IO Entry := do
  match ← (IO.FS.readBinFile (String.ofList p.toText)).toBaseIO with
  | .ok bytes => return .file bytes.toList
  | .error (.inappropriateType _ 21 _) => return .directory
  | .error (.inappropriateType ..) => return .notDirectory
  | .error _ => return .missing

/-- The disk on which something was found at some paths, and nothing anywhere else. -/
def diskOf (found : List (Path × Entry)) : Disk := fun p => (found.lookup p).getD .missing

/-- How every launch goes. -/
def outcome : Generator.Outcome :=
  .failed (.numbered 38 "Function not implemented".toList (some Generator.defaultExecutable))

/-- What is told about a call that broke off. -/
def breakText : Cli.Break → Text
  | .outline .endless => "the nested types of the operation have no end".toList
  | .connector failure => failure.message
  | .read path fault => fault.message path
  | .noDirectory => Cli.noDirectoryMessage
  | .generator error => error.message

/-- What is printed, with a replacement character for every half of a surrogate pair. -/
def printable (t : Points) : String :=
  String.ofList (t.map fun
    | .char c => c
    | .half _ => Text.Utf8.replacement)

/-- Run the program on a command line, with a library that reads YAML. -/
def main {V : Type} (yaml : Yaml.Library V) (argv : List String) : IO UInt32 := do
  let args := argv.map String.toList
  let directory := Path.ofText (← IO.currentDir).toString.toList
  let found ← (Cli.consulted directory args).mapM fun p => return (p, ← look p)
  let report := Cli.run ⟨directory, diskOf found, outcome, yaml⟩ args
  IO.print (printable report.stdout)
  IO.eprint (String.ofList report.stderr)
  match report.ending with
  | .exit code => return UInt32.ofNat code
  | .breakOff cause =>
    IO.eprintln (String.ofList (breakText cause))
    return 1

end GqlScan.Program
