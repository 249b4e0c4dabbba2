import GqlScan.Json
import GqlScan.NestedTypes
import GqlScan.Operation
import GqlScan.Schema

/-!
# Results as JSON

Operations and schema types as plain data. Fields are written without their selections; those are
found among the nested types, in the order in which their names were registered.
-/

namespace GqlScan.Export

open Json (Value)

/-- A field, without its selections. -/
def ofField (f : Field) : Value :=
  .object [("name".toList, .str f.name), ("type".toList, .str f.type)]

/-- Some fields. -/
def ofFields (fields : List Field) : Value := .array (fields.map ofField)

/-- A variable. -/
def ofVariable (v : Variable) : Value :=
  .object [("name".toList, .str v.name), ("type".toList, .str v.type)]

/-- An operation with registered types. -/
def ofOperation (types : NestedTypes) (o : Operation) : Value :=
  .object
    [("kind".toList, .str o.kind.keyword), ("name".toList, .str o.name),
      ("variables".toList, .array (o.parameters.map ofVariable)),
      ("fields".toList, ofFields o.fields),
      ("nested".toList, .object (types.entries.map fun e => (e.1, ofFields e.2)))]

/-- A schema type. -/
def ofType (d : TypeDefinition) : Value :=
  .object
    [("name".toList, .str d.name), ("is_table".toList, .bool d.isTable),
      ("fields".toList, ofFields d.fields)]

/-- Schema types. -/
def ofSchema (definitions : List TypeDefinition) : Value := .array (definitions.map ofType)

end GqlScan.Export
