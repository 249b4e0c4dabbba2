import GqlScan.NestedTypes
import GqlScan.Notice
import GqlScan.Operation
import GqlScan.Scope
import GqlScan.Selection.Scan

/-!
# The operation of a document

The first live line with a header names the operation of a document. Its lines are those of its
scope; variables are read from all of them, and the fields from the block that starts at the
first opening brace behind the header.

A scan carries along the nested types that earlier scans have left behind and registers nested
selections as it meets them. What it finds can be said without them: `operation?` is the operation
of a document.
-/

namespace GqlScan.Document

open Text

/-- The first header of a document. -/
def header? (content : Text) : Option Header :=
  (Comment.liveLines content).findSome? fun line => Header.find? line.text

/-- The lines of an operation without its header. -/
def withoutHeader : List Text → List Text
  | [] => []
  | first :: rest => Header.after first :: rest

/-- The block that starts at the first opening brace. -/
def selectionSet? : List Text → Option Block
  | [] => none
  | line :: rest =>
    if '{' ∈ line then some (Block.take (Text.after '{' line) rest) else selectionSet? rest

/-- The fields in the selection set of an operation, none when it has no selection set. -/
def fieldsOf (name : Text) (lines : List Text) : List Field :=
  match selectionSet? (withoutHeader lines) with
  | some block => Selection.fields name block.body
  | none => []

/-- The operation with a header and the lines of its scope. -/
def operationOf (header : Header) (lines : List Text) : Operation where
  kind := header.kind
  name := header.name
  parameters := Variable.inLines lines
  fields := fieldsOf header.name lines

/-- The operation of a document. -/
def operation? (content : Text) : Option Operation :=
  (header? content).map fun header => operationOf header (Scope.linesOf content header.name)

/-- Scan the selection set of an operation with the nested types of earlier scans: its fields, and
the nested types afterwards. -/
def scanFields (types : NestedTypes) (name : Text) (lines : List Text) :
    List Field × NestedTypes :=
  match selectionSet? (withoutHeader lines) with
  | some block => Selection.scan types name block.body
  | none => ([], types)

/-- Scan a document with the nested types of earlier scans: its operation and the nested types
afterwards. -/
def scan (types : NestedTypes) (content : Text) : Option Operation × NestedTypes :=
  match header? content with
  | some header =>
    let lines := Scope.linesOf content header.name
    let found := scanFields types header.name lines
    (some ⟨header.kind, header.name, Variable.inLines lines, found.1⟩, found.2)
  | none => (none, types)

/-- The nested types of a document on its own. -/
def nestedTypes (content : Text) : NestedTypes := (scan .empty content).2

/-- The notices of an operation with the lines of its scope. -/
def noticesOf (name : Text) (lines : List Text) : List Notice :=
  match selectionSet? (withoutHeader lines) with
  | some block =>
    (if block.closed then [] else [.openSelectionSet name])
      ++ (Selection.passedOver block.body).map .unrecognisedLine
  | none => [.noSelectionSet name]

/-- The notices of a scan for the operation of a document. -/
def notices (content : Text) : List Notice :=
  match header? content with
  | some header => noticesOf header.name (Scope.linesOf content header.name)
  | none => [.noHeader]

end GqlScan.Document
