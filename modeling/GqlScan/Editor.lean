import GqlScan.Document
import GqlScan.Generator
import GqlScan.Schema
import GqlScan.Uri
import GqlScan.Word

/-!
# The editor

What an editor is told about the documents that are open in it. Opening or changing a document
publishes its diagnostics, saving it launches the code generator, and pointing at a word describes
it. All of this looks at one document at a time. The texts of documents are kept by a library, of
which it is known only that it keeps them apart by their URIs with escapes undone.
-/

namespace GqlScan.Editor

open Text

/-! ## Diagnostics -/

/-- The place of a diagnostic: lines and columns, counted from zero. -/
structure Range where
  startLine : Nat
  startColumn : Nat
  endLine : Nat
  endColumn : Nat
  deriving DecidableEq, Repr

/-- How bad a diagnostic is. -/
inductive Severity where
  | error
  | warning
  | information
  | hint
  deriving DecidableEq, Repr

/-- The number of a severity. -/
def Severity.number : Severity → Nat
  | .error => 1
  | .warning => 2
  | .information => 3
  | .hint => 4

/-- A complaint about a document. -/
structure Diagnostic where
  range : Range
  severity : Severity
  source : Text
  message : Text
  deriving DecidableEq, Repr

/-- The complaint about a document in which nothing was found. -/
def unrecognised : Diagnostic where
  range := ⟨0, 0, 0, 1⟩
  severity := .warning
  source := "dataconnect-gql".toList
  message := "No GraphQL operation or type definition found".toList

/-- The diagnostics of a document: one when it holds neither an operation nor a schema type. -/
def diagnostics (content : Text) : List Diagnostic :=
  if (Document.operation? content).isSome || !(Schema.definitions content).isEmpty then []
  else [unrecognised]

/-! ## Descriptions -/

/-- The scalar types and what they hold. -/
def scalars : List (Text × Text) :=
  [("String".toList, "UTF-8 text".toList), ("Int".toList, "Signed 32-bit integer".toList),
    ("Float".toList, "Double-precision floating point number".toList),
    ("Boolean".toList, "true or false".toList), ("ID".toList, "Unique identifier".toList)]

/-- A title in bold face. -/
def bold (title : Text) : Text := ['*', '*'] ++ title ++ ['*', '*']

/-- A title with a list of fields under it. -/
def fieldList (title : Text) (fields : List Field) : Text :=
  joinLines ([bold title, []]
    ++ fields.map fun f => "- \x60".toList ++ f.name ++ ": ".toList ++ f.type ++ ['\x60'])

/-- The description of a schema type. -/
def describeType (d : TypeDefinition) : Text :=
  fieldList ("type ".toList ++ d.name ++ (if d.isTable then " @table".toList else [])) d.fields

/-- The description of a word as an operation or as the type of a nested selection. -/
def describeInOperation (content word : Text) : Option Text := do
  let o ← Document.operation? content
  if word = o.name then return fieldList (o.kind.keyword ++ [' '] ++ word) o.fields
  else
    let fields ← (Document.nestedTypes content).get? word
    return fieldList word fields

/-- The description of a word of a document: a scalar type, else the first schema type of that
name, else the operation, else the type of a nested selection. -/
def describe (content word : Text) : Option Text :=
  match scalars.lookup word with
  | some holds => some (bold word ++ ": ".toList ++ holds)
  | none =>
    match (Schema.definitions content).find? (·.name == word) with
    | some d => some (describeType d)
    | none => describeInOperation content word

/-- The description of what stands at a line and column of a document. -/
def hover (content : Text) (line : Nat) (column : Int) : Option Text := do
  let l ← (lines content)[line]?
  let word := wordAt l.full column
  if word = [] then none else describe content word

/-! ## Events -/

/-- What the editor is told. -/
inductive Event where
  | publish (uri : Text) (diagnostics : List Diagnostic)
  | inform (message : Text)
  | warn (message : Text)
  deriving DecidableEq, Repr

/-- The event that shows the result of a launch. -/
def resultEvent (r : Generator.Result) : Event :=
  if r.success then .inform r.message else .warn r.message

/-- What surrounds the editor: the disk, the current directory and the root of the project. -/
structure Workspace where
  disk : Disk
  directory : Path
  root? : Option Text

/-! ## Documents -/

/-- A library that keeps the texts of documents. Opening a document and changing it put a text in
place of the one before; `path` is where the file of a document is looked for. -/
structure Library (σ : Type) where
  put : σ → Text → Text → σ
  source : σ → Text → Except ReadFault Text
  path : Text → Path

/-- What tells documents apart: their URIs with escapes undone. -/
def key (uri : Text) : Text := Uri.unescape uri

/-- What is known of a library that starts with nothing put into it. A document has the text that
was put last under its key, and until then the text of its file. -/
structure Library.Keeps {σ : Type} (documents : Library σ) (disk : Disk) (start : σ) : Prop where
  source_start : ∀ uri, documents.source start uri = disk.readText (documents.path uri)
  source_put : ∀ s uri content other, documents.source (documents.put s uri content) other
    = if key other = key uri then .ok content else documents.source s other

/-! ## Steps -/

/-- A step of a session. Opening a document and changing it are one step: its text is stored. -/
inductive Step where
  | store (uri content : Text)
  | save (uri : Text) (outcome : Generator.Outcome)
  | hover (uri : Text) (line : Nat) (column : Int)
  deriving DecidableEq, Repr

/-- The document that a step is about. -/
def Step.uri : Step → Text
  | store uri _ => uri
  | save uri _ => uri
  | hover uri _ _ => uri

/-- What a step breaks off with. -/
inductive Fault where
  | uri (fault : Uri.Fault)
  | source (fault : ReadFault)
  /-- the code generator was launched, and what it wrote is no text -/
  | generator (error : Utf8.DecodeError)
  deriving DecidableEq, Repr

/-- The answer to a step. A save that breaks off may have launched the code generator before. -/
inductive Answer where
  | told (events : List Event)
  | saved (events : List Event) (calls : List Generator.Call)
  | described (text? : Option Text)
  | failed (fault : Fault) (calls : List Generator.Call)
  deriving DecidableEq, Repr

/-- What saving a document launches and tells. Without a root there is no project to generate code
for. -/
def save (w : Workspace) (uri : Text) (outcome : Generator.Outcome) : Answer :=
  match Uri.isDocument uri, Uri.toPath uri with
  | .error fault, _ => .failed (.uri fault) []
  | .ok false, _ => .saved [] []
  | .ok true, .error fault => .failed (.uri fault) []
  | .ok true, .ok file =>
    match w.root? with
    | none => .saved [] []
    | some root =>
      match Generator.afterSave w.disk w.directory file root Generator.defaultExecutable
          outcome with
      | none => .saved [] []
      | some run =>
        match run.result with
        | .ok result => .saved [resultEvent result] run.calls
        | .error error => .failed (.generator error) run.calls

/-! ## Sessions -/

section

variable {σ : Type} (documents : Library σ)

/-- What is told when the text of a document has been stored. -/
def validate (s : σ) (uri : Text) : Answer :=
  match Uri.isDocument uri with
  | .error fault => .failed (.uri fault) []
  | .ok false => .told []
  | .ok true =>
    match documents.source s uri with
    | .error fault => .failed (.source fault) []
    | .ok content => .told [.publish uri (diagnostics content)]

/-- What stands at a line and column of a document. -/
def point (s : σ) (uri : Text) (line : Nat) (column : Int) : Answer :=
  match documents.source s uri with
  | .error fault => .failed (.source fault) []
  | .ok content => .described (hover content line column)

/-- The texts after a step. -/
def after (s : σ) : Step → σ
  | .store uri content => documents.put s uri content
  | .save _ _ => s
  | .hover _ _ _ => s

/-- The answer to a step, given the texts after it. -/
def answer (w : Workspace) (s : σ) : Step → Answer
  | .store uri _ => validate documents s uri
  | .save uri outcome => save w uri outcome
  | .hover uri line column => point documents s uri line column

/-- The answers to consecutive steps. -/
def answers (w : Workspace) (s : σ) : List Step → List Answer
  | [] => []
  | step :: rest =>
    answer documents w (after documents s step) step
      :: answers w (after documents s step) rest

end

end GqlScan.Editor
