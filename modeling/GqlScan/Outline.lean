import GqlScan.NestedTypes
import GqlScan.Operation
import GqlScan.Schema

/-!
# Outlines

Operations and schema types as indented text. Under a field of an operation stand the fields that
are registered under its type, whether that type was made up for a nested selection or written
by hand. A type may therefore lead back to itself; its outline would have no end, and none is
given.

The registered names bound the depth of an outline that ends: on a longer way down some name would
be met twice.
-/

namespace GqlScan

open Text

namespace Outline

/-- Why there is no outline. -/
inductive Failure where
  /-- a registered type leads back to itself -/
  | endless
  deriving DecidableEq, Repr

/-- The line of a field. -/
def fieldLine (indent : Nat) (f : Field) : Text :=
  List.replicate indent ' ' ++ f.name ++ ": ".toList ++ f.type

/-- The fields that stand under a field: those registered under its type. -/
def below (types : NestedTypes) (f : Field) : List Field := (types.get? f.type).getD []

/-- The lines of some fields and, below each, of the fields under it. At most `depth` registered
types may lie on one way down. -/
def fieldLines (types : NestedTypes) : Nat → Nat → List Field → Except Failure (List Text)
  | 0, indent, fields =>
    if fields.all fun f => (below types f).isEmpty then .ok (fields.map (fieldLine indent))
    else .error .endless
  | depth + 1, indent, fields => do
    let blocks ← fields.mapM fun f => do
      let lines ← fieldLines types depth (indent + 2) (below types f)
      return fieldLine indent f :: lines
    return blocks.flatten

/-- The first lines of the outline of an operation. -/
def headLines (o : Operation) : List Text :=
  [o.kind.keyword ++ [' '] ++ o.name]
    ++ (if o.parameters.isEmpty then [] else
      "  variables:".toList :: o.parameters.map fun v =>
        "    $".toList ++ v.name ++ ": ".toList ++ v.type)
    ++ ["  fields:".toList]

/-- The outline of an operation over registered types. -/
def ofOperation (types : NestedTypes) (o : Operation) : Except Failure Text := do
  let below ← fieldLines types types.size 4 o.fields
  return joinLines (headLines o ++ below)

/-- The lines of a schema type. -/
def typeLines (d : TypeDefinition) : List Text :=
  ("type ".toList ++ d.name ++ (if d.isTable then " @table".toList else []))
    :: d.fields.map (fieldLine 2)

/-- The outline of schema types. -/
def ofSchema (definitions : List TypeDefinition) : Text := joinLines (definitions.flatMap typeLines)

end Outline

end GqlScan
