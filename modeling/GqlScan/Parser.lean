import GqlScan.Document
import GqlScan.Schema

/-!
# Parsers

A parser answers calls one after another: for the operation of a document, for the types of a
document, and for what is registered. Between two calls it keeps the nested types and nothing else.
-/

namespace GqlScan.Parser

open Text

/-- What a parser can be asked. -/
inductive Call where
  /-- the operation of a document -/
  | operation (content : Text)
  /-- the types of a document -/
  | schema (content : Text)
  /-- the fields registered under a name -/
  | fields (name : Text)
  /-- whether a name is registered -/
  | holds (name : Text)
  /-- the registered names -/
  | names
  /-- the number of registered names -/
  | size
  deriving DecidableEq, Repr

/-- What a parser can answer. -/
inductive Answer where
  | operation (found : Option Operation)
  | schema (definitions : List TypeDefinition)
  | fields (found : Option (List Field))
  | holds (held : Bool)
  | names (all : List Text)
  | size (count : Nat)
  deriving DecidableEq, Repr

/-- Answer a call; the nested types afterwards come with the answer. -/
def step (types : NestedTypes) : Call → NestedTypes × Answer
  | .operation content =>
    let (found, types') := Document.scan types content
    (types', .operation found)
  | .schema content => (types, .schema (Schema.definitions content))
  | .fields name => (types, .fields (types.get? name))
  | .holds name => (types, .holds (types.contains name))
  | .names => (types, .names types.names)
  | .size => (types, .size types.size)

/-- The nested types after some calls. -/
def after (types : NestedTypes) (calls : List Call) : NestedTypes :=
  calls.foldl (fun types call => (step types call).1) types

end GqlScan.Parser
