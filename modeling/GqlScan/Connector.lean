import GqlScan.Place
import GqlScan.Yaml

/-!
# Connector files

A connector file is a YAML mapping. Under `generate` it lists, by kind, what the code generator is
to write: one target or a list of targets, each with an optional output directory and package.
Output directories are taken from the folder of the file and made absolute.

The library that reads YAML is given, and so are the values that it makes of a text.
-/

namespace GqlScan.Connector

open Text

/-- The name of a connector file. -/
def fileName : Text := "connector.yaml".toList

/-- One thing to generate. -/
structure Target (V : Type) where
  kind : V
  outputDir? : Option Place
  package? : Option V

/-- What a connector file says. -/
structure Config (V : Type) where
  path : Path
  connectorId? : Option V
  targets : List (Target V)

/-- The output directories of all targets that have one. -/
def Config.outputDirs {V : Type} (c : Config V) : List Place :=
  c.targets.filterMap Target.outputDir?

/-! ## Failures -/

/-- Why a connector file cannot be used. -/
inductive Failure where
  | unreadable (path : Path) (fault : OpenFault)
  | undecodable (error : Utf8.DecodeError)
  | notYaml (path : Path) (problem : Text)
  /-- the library that reads YAML failed with an error of another class -/
  | library (error message : Text)
  | notMapping (path : Path)
  | generateNotMapping (path : Path)
  /-- an entry of a kind, which is given as messages show it -/
  | entryNotMapping (kind : Text)
  | badOutputDir (type : Text)
  | noPlace (fault : Place.Fault)
  /-- the path of the file holds the null character -/
  | nullCharacter
  deriving DecidableEq, Repr

namespace Failure

/-- Whether a failure is reported as a fault of the configuration. -/
def isReported : Failure → Bool
  | unreadable .. | notYaml .. | notMapping _ | generateNotMapping _ | entryNotMapping _ => true
  | undecodable _ | library .. | badOutputDir _ | noPlace _ | nullCharacter => false

/-- The wording of a failure. -/
def message : Failure → Text
  | unreadable path fault =>
    "Cannot read ".toList ++ path.toText ++ ": ".toList ++ fault.message path
  | undecodable error => error.message
  | notYaml path problem => "Invalid YAML in ".toList ++ path.toText ++ ": ".toList ++ problem
  | library _ message => message
  | notMapping path => path.toText ++ ": top level must be a mapping".toList
  | generateNotMapping path => path.toText ++ ": 'generate' must be a mapping".toList
  | entryNotMapping kind => "Invalid '".toList ++ kind ++ "' entry: expected a mapping".toList
  | badOutputDir type =>
    "unsupported operand type(s) for /: 'PosixPath' and '".toList ++ type ++ ['\'']
  | noPlace fault => fault.message
  | nullCharacter => nullCharacterMessage

end Failure

/-! ## Targets -/

section

variable {V : Type} (yaml : Yaml.Library V)

/-- The output directory that a value names, seen from the folder of the connector file. -/
def outputDir (directory folder : Path) (v : V) : Except Failure (Option Place) :=
  if yaml.isFalsy v then .ok none
  else
    match yaml.view v with
    | .null => .ok none
    | .str t =>
      match Place.find directory folder t with
      | .ok place => .ok (some place)
      | .error fault => .error (.noPlace fault)
    | .list _ => .error (.badOutputDir "list".toList)
    | .map _ => .error (.badOutputDir "dict".toList)
    | .other type _ => .error (.badOutputDir type)

/-- The target of one entry. A null entry asks for a kind and nothing else. -/
def target (directory folder : Path) (kind entry : V) : Except Failure (Target V) :=
  match yaml.view entry with
  | .null => .ok ⟨kind, none, none⟩
  | .map fields =>
    match yaml.field? "outputDir".toList fields with
    | none => .ok ⟨kind, none, yaml.field? "package".toList fields⟩
    | some v => do
      let dir? ← outputDir yaml directory folder v
      return ⟨kind, dir?, yaml.field? "package".toList fields⟩
  | _ => .error (.entryNotMapping (yaml.shown kind))

/-- The entries of a kind: the members of a list, or the value itself. -/
def entriesOf (v : V) : List V :=
  match yaml.view v with
  | .list items => items
  | _ => [v]

/-- The kinds and their entries, in the order of the file. -/
def requests (kinds : List (V × V)) : List (V × V) :=
  kinds.flatMap fun (kind, v) => (entriesOf yaml v).map fun entry => (kind, entry)

/-- The kinds that are listed under `generate`, where all that is falsy lists none. -/
def kinds? : Option V → Option (List (V × V))
  | none => some []
  | some v =>
    if yaml.isFalsy v then some []
    else
      match yaml.view v with
      | .map kinds => some kinds
      | _ => none

/-- The entries at the top level of a document, none when the document is null. -/
def topLevel? (v : V) : Option (List (V × V)) :=
  match yaml.view v with
  | .null => some []
  | .map fields => some fields
  | _ => none

/-- What the value of a connector file says. -/
def ofValue (directory path : Path) (v : V) : Except Failure (Config V) := do
  let some fields := topLevel? yaml v | throw (.notMapping path)
  let some kinds := kinds? yaml (yaml.field? "generate".toList fields)
    | throw (.generateNotMapping path)
  let targets ← (requests yaml kinds).mapM fun (kind, entry) =>
    target yaml directory path.parent kind entry
  return ⟨path, yaml.field? "connectorId".toList fields, targets⟩

end

/-! ## Files -/

/-- The connector file of a folder, if there is one. -/
def find? (disk : Disk) (folder : Path) : Option Path :=
  if disk.isFile (folder.child fileName) then some (folder.child fileName) else none

/-- What a connector file says, paths being seen from a directory. -/
def load {V : Type} (yaml : Yaml.Library V) (disk : Disk) (directory path : Path) :
    Except Failure (Config V) :=
  match disk.readText path with
  | .error (.openFault fault) => .error (.unreadable path fault)
  | .error (.undecodable error) => .error (.undecodable error)
  | .error .nullCharacter => .error .nullCharacter
  | .ok text =>
    match yaml.load text with
    | .notYaml problem => .error (.notYaml path problem)
    | .raised error message => .error (.library error message)
    | .value v => ofValue yaml directory path v

end GqlScan.Connector
