import GqlScan.Log
import GqlScan.Text.Quoted

/-!
# Notices of the scanners

The scanners never fail; what they pass over or have to guess they report as notices.
-/

namespace GqlScan

open Text

/-- A report of a scanner. -/
inductive Notice where
  /-- no line of the document carries an operation header -/
  | noHeader
  /-- the selection set of an operation goes on to the end of its scope -/
  | openSelectionSet (operation : Text)
  /-- an operation has no opening brace -/
  | noSelectionSet (operation : Text)
  /-- a line of a selection set has none of the known shapes -/
  | unrecognisedLine (line : Text)
  /-- the next type starts, on the given line, before a type was closed -/
  | unclosedType (type : Text) (line : Nat)
  /-- the document ends inside a type, which is dropped -/
  | unfinishedType (type : Text)
  deriving DecidableEq, Repr

namespace Notice

/-- The wording of a notice. -/
def message : Notice → Text
  | noHeader => "No operation header found".toList
  | openSelectionSet operation =>
    "Selection set of '".toList ++ operation ++ "' is not closed".toList
  | noSelectionSet operation => "Operation '".toList ++ operation ++ "' has no selection set".toList
  | unrecognisedLine line => "Skipping unrecognised selection line: ".toList ++ quoted line
  | unclosedType type line =>
    "Type '".toList ++ type ++ "' not closed before line ".toList ++ ofNat line
  | unfinishedType type => "Dropping unterminated type '".toList ++ type ++ ['\'']

/-- The part of the program that gives notices. -/
def source : Text := "dataconnect_gql.parsing.graphql_parser".toList

/-- A notice as a log record. Notices are for debugging. -/
def record (n : Notice) : Log.Record := ⟨.debug, source, n.message⟩

end Notice

end GqlScan
