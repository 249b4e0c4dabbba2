import GqlScan.CommandLine
import GqlScan.Document
import GqlScan.Export
import GqlScan.Generator
import GqlScan.Outline
import GqlScan.Schema

/-!
# The program

A call of the program reads its command line, scans one document, prints what was found and, if
asked to, launches the code generator. Every call is a function of its surroundings: the current
directory, the disk and the outcome of a launch.
-/

namespace GqlScan.Cli

open Text

/-- What surrounds a call. -/
structure World (V : Type) where
  directory : Path
  disk : Disk
  outcome : Generator.Outcome
  yaml : Yaml.Library V

/-- What a call breaks off with. -/
inductive Break where
  | outline (failure : Outline.Failure)
  | connector (failure : Connector.Failure)
  | read (path : Path) (fault : ReadFault)
  /-- the code generator is asked for, and the project has no directory -/
  | noDirectory
  /-- the code generator was launched, and what it wrote is no text -/
  | generator (error : Utf8.DecodeError)
  deriving Repr

/-- The wording of the complaint about a project without a directory. -/
def noDirectoryMessage : Text := "expected str, bytes or os.PathLike object, not list".toList

/-- How a call ends: with an exit code, or broken off. -/
inductive Ending where
  | exit (code : Nat)
  | breakOff (cause : Break)
  deriving Repr

/-- What a call leaves behind. What is printed can hold halves of surrogate pairs. -/
structure Report where
  ending : Ending
  stdout : Points := []
  stderr : Text := []
  calls : List Generator.Call := []
  deriving Repr

namespace Report

/-- The report of a call that says one thing and exits. -/
def complain (message : Text) : Report :=
  ⟨.exit 1, [], "Error: ".toList ++ message ++ ['\n'], []⟩

/-- A report after something was printed and logged. -/
def preceded (r : Report) (stdout : Points) (stderr : Text) : Report :=
  { r with stdout := stdout ++ r.stdout, stderr := stderr ++ r.stderr }

end Report

/-- The least level of the records that are shown. -/
def logLevel (s : CommandLine.Settings) : Log.Level := if s.verbose then .debug else .warning

/-- Log records as they are shown. -/
def logText (s : CommandLine.Settings) (records : List Log.Record) : Text :=
  (Log.atLeast (logLevel s) records).flatMap fun r => r.line ++ ['\n']

/-! ## Scanning -/

/-- What a scan finds: a text to print, or what it looked for in vain. -/
inductive Finding where
  | found (text : Except Outline.Failure Text)
  | nothing (sought : Text)

/-- What a document holds, in the form that is asked for. -/
def finding (s : CommandLine.Settings) (content : Text) : Finding :=
  if s.schema then
    let definitions := Schema.definitions content
    if definitions.isEmpty then .nothing "type definitions".toList
    else if s.json then .found (.ok ((Export.ofSchema definitions).render 0))
    else .found (.ok (Outline.ofSchema definitions))
  else
    match Document.scan .empty content with
    | (none, _) => .nothing "operation".toList
    | (some o, types) =>
      if s.json then .found (.ok ((Export.ofOperation types o).render 0))
      else .found (Outline.ofOperation types o)

/-- The notices of a scan. -/
def notices (s : CommandLine.Settings) (content : Text) : List Notice :=
  if s.schema then Schema.notices content else Document.notices content

/-! ## Generating -/

section

variable {V : Type}

/-- The lines that name output directories. -/
def outputLines (config : Connector.Config V) : Points :=
  config.outputDirs.flatMap fun dir =>
    Points.ofText "Output: ".toList ++ dir.text ++ [.char '\n']

/-- The launch in a project directory that follows a scan whose result has been printed. -/
def launch (w : World V) (s : CommandLine.Settings) (projectDir : Path) : Report :=
  match Generator.afterSave w.disk w.directory s.file projectDir.toText
      Generator.defaultExecutable w.outcome with
  | none => .complain ("Not a .gql document: ".toList ++ s.file.toText)
  | some run =>
    match run.result with
    | .ok result =>
      { ending := .exit (if result.success then 0 else 1)
        stdout := Points.ofText (result.message ++ ['\n'])
        stderr := logText s run.logs
        calls := run.calls }
    | .error error =>
      { ending := .breakOff (.generator error)
        stderr := logText s run.logs
        calls := run.calls }

/-- The check of the connector file, if there is one, and the launch. -/
def generate (w : World V) (s : CommandLine.Settings) : Report :=
  match s.projectDir? with
  | none => { ending := .breakOff .noDirectory }
  | some projectDir =>
    match Connector.find? w.disk projectDir with
    | none => launch w s projectDir
    | some connector =>
      match Connector.load w.yaml w.disk w.directory connector with
      | .ok config => (launch w s projectDir).preceded (outputLines config) []
      | .error failure =>
        if failure.isReported then .complain failure.message
        else { ending := .breakOff (.connector failure) }

/-! ## Calls -/

/-- The scan of a document whose text is known, and what follows it. -/
def scan (w : World V) (s : CommandLine.Settings) (content : Text) : Report :=
  let logs := logText s ((notices s content).map Notice.record)
  match finding s content with
  | .nothing sought =>
    (Report.complain ("No ".toList ++ sought ++ " found in ".toList ++ s.file.toText)).preceded
      [] logs
  | .found (.error failure) => ⟨.breakOff (.outline failure), [], logs, []⟩
  | .found (.ok text) =>
    let rest : Report := if s.codegen then generate w s else { ending := .exit 0 }
    rest.preceded (Points.ofText (text ++ ['\n'])) logs

/-- A call with its settings. -/
def perform (w : World V) (s : CommandLine.Settings) : Report :=
  if w.disk.holds s.file then
    match w.disk.readText s.file with
    | .ok content => scan w s content
    | .error .nullCharacter => ⟨.breakOff (.read s.file .nullCharacter), [], [], []⟩
    | .error fault => .complain (fault.message s.file)
  else .complain ("File not found: ".toList ++ s.file.toText)

/-- A call of the program. -/
def run (w : World V) (argv : List Text) : Report :=
  match CommandLine.read w.directory argv with
  | .help => { ending := .exit 0, stdout := Points.ofText CommandLine.help }
  | .refuse refusal => { ending := .exit 2, stderr := refusal.report }
  | .scan settings => perform w settings

end

/-- The paths at which a call looks: its document, and the connector file of its project. -/
def consulted (directory : Path) (argv : List Text) : List Path :=
  match CommandLine.read directory argv with
  | .scan settings =>
    settings.file :: settings.projectDir?.toList.map fun dir => dir.child Connector.fileName
  | .help | .refuse _ => []

end GqlScan.Cli
