import GqlScan.Connector
import GqlScan.Log
import GqlScan.Text.Blank

/-!
# The code generator

After a document is saved the code generator is launched for the connector file of its project.
How the launch goes is given; this file says what is launched and what is made of the outcome.
-/

namespace GqlScan.Generator

open Text

/-- What is launched: a command line, and the directory it is launched in. -/
structure Call where
  command : List Text
  directory : Text
  deriving DecidableEq, Repr

/-- Why a launch fails, in the words of the system. -/
inductive SystemError where
  | plain (text : Text)
  | numbered (number : Int) (text : Text) (file? : Option Text)
  deriving DecidableEq, Repr

/-- The report of a system error. -/
def SystemError.message : SystemError → Text
  | plain text => text
  | numbered number text file? =>
    "[Errno ".toList ++ ofInt number ++ "] ".toList ++ text
      ++ (match file? with
        | some file => ": ".toList ++ quoted file
        | none => [])

/-- How a launch goes. -/
inductive Outcome where
  | completed (exit : Int) (stderr : Text)
  | failed (error : SystemError)
  /-- the generator was launched, and what it wrote is no text -/
  | undecodable (error : Utf8.DecodeError)
  deriving DecidableEq, Repr

/-- What is made of it. There is an exit code when the generator was launched and completed. -/
structure Result where
  success : Bool
  message : Text
  exitCode? : Option Int
  deriving DecidableEq, Repr

/-- A result, with what was launched and reported on the way. There is no result when the output of
the generator is no text: that error is passed on. -/
structure Run where
  result : Except Utf8.DecodeError Result
  calls : List Call
  logs : List Log.Record
  deriving Repr

/-- The program that is launched unless another is named. -/
def defaultExecutable : Text := "firebase".toList

/-- The part of the program that reports on launches. -/
def source : Text := "dataconnect_gql.codegen".toList

/-- The command line for a connector file, given by its absolute path. -/
def command (executable : Text) (connector : Path) : List Text :=
  [executable, "data-connect".toList, "codegen".toList, "--config=".toList ++ connector.toText]

/-- The result of a launch. -/
def Outcome.result : Outcome → Except Utf8.DecodeError Result
  | completed exit _ =>
    if exit = 0 then .ok ⟨true, "Code generation succeeded.".toList, some 0⟩
    else .ok ⟨false, "Code generation failed.".toList, some exit⟩
  | failed error => .ok ⟨false, "Failed to run codegen: ".toList ++ error.message, none⟩
  | undecodable error => .error error

/-- The report on a launch. -/
def Outcome.record? : Outcome → Option Log.Record
  | completed exit stderr =>
    if exit = 0 then some ⟨.info, source, "Code generation finished".toList⟩
    else
      some ⟨.warning, source,
        "Code generation exited with ".toList ++ ofInt exit ++ ": ".toList ++ trim stderr⟩
  | failed _ => some ⟨.error, source, "Failed to launch code generator".toList⟩
  | undecodable _ => none

/-- Launch the generator for a connector file, seen from a directory, in a project. -/
def launch (directory connector : Path) (project executable : Text) (outcome : Outcome) : Run :=
  let line := command executable (directory.absolute connector)
  { result := outcome.result
    calls := [⟨line, project⟩]
    logs := ⟨.info, source, "Running ".toList ++ join [' '] line⟩ :: outcome.record?.toList }

/-- Launch the generator for a connector file that may not exist. There is no launch when its path
holds the null character. -/
def launch? (directory connector : Path) (project executable : Text) (outcome : Outcome) :
    Option Run :=
  if connector.hasNull then none else some (launch directory connector project executable outcome)

/-- What is made of a project without a connector file. -/
def noConnector (project : Text) : Run where
  result := .ok ⟨false, Connector.fileName ++ " not found in project root.".toList, none⟩
  calls := []
  logs := [⟨.info, source, "No ".toList ++ Connector.fileName ++ " in ".toList ++ project⟩]

/-- What happens when a file of a project is saved: nothing unless it is a document. -/
def afterSave (disk : Disk) (directory file : Path) (project executable : Text)
    (outcome : Outcome) : Option Run :=
  if file.isDocument then
    match Connector.find? disk (Path.ofText project) with
    | some connector => some (launch directory connector project executable outcome)
    | none => some (noConnector project)
  else none

end GqlScan.Generator
