import GqlScan.Operation

/-!
# Canonical documents

A canonical document holds one operation and nothing else, written out line by line: a head line, a
line for each field that is named, and for each selection a line that opens it, the lines of the
fields in it and a line that closes it. Blanks at the front of a line are free.

Names, types and forests carry what makes them writable, so that `Source.print` takes any source.
-/

namespace GqlScan.Canonical

open Text

/-- A text of one or more letters of a name. -/
def IsName (t : Text) : Prop := t ≠ [] ∧ ∀ c ∈ t, isNameChar c = true

/-- A text of one or more letters of a type reference. -/
def IsTypeName (t : Text) : Prop := t ≠ [] ∧ ∀ c ∈ t, isTypeChar c = true

instance (t : Text) : Decidable (IsName t) :=
  decidable_of_iff (t ≠ [] ∧ t.all isNameChar = true) (and_congr_right' List.all_eq_true)

instance (t : Text) : Decidable (IsTypeName t) :=
  decidable_of_iff (t ≠ [] ∧ t.all isTypeChar = true) (and_congr_right' List.all_eq_true)

/-- A name that can be written. -/
abbrev Name := { t : Text // IsName t }

/-- A type reference that can be written. -/
abbrev TypeName := { t : Text // IsTypeName t }

/-- Fields in the order of their lines. A leaf may have a type of its own. -/
inductive Forest where
  | nil
  | leaf (name : Name) (type? : Option TypeName) (rest : Forest)
  | node (name : Name) (children rest : Forest)

namespace Forest

/-- The names in the scope of a forest, without those further down. -/
def names : Forest → List Name
  | nil => []
  | leaf name _ rest => name :: rest.names
  | node name _ rest => name :: rest.names

/-- No name twice in one scope, and no selection without a field. -/
def Proper : Forest → Prop
  | nil => True
  | leaf name _ rest => name ∉ rest.names ∧ rest.Proper
  | node name children rest =>
    name ∉ rest.names ∧ children.names ≠ [] ∧ children.Proper ∧ rest.Proper

instance decidableProper : (f : Forest) → Decidable f.Proper
  | nil => isTrue trivial
  | leaf _ _ rest =>
    haveI := decidableProper rest
    inferInstanceAs (Decidable (_ ∧ _))
  | node _ children rest =>
    haveI := decidableProper children
    haveI := decidableProper rest
    inferInstanceAs (Decidable (_ ∧ _ ∧ _ ∧ _))

/-- The line of a leaf. -/
def leafLine (name : Name) : Option TypeName → Text
  | none => name.1
  | some type => name.1 ++ [':', ' '] ++ type.1

/-- The line that opens a selection. -/
def openLine (name : Name) : Text := name.1 ++ [' ', '{']

/-- The line that closes a selection. -/
def closeLine : Text := ['}']

/-- The lines of a forest. -/
def lines : Forest → List Text
  | nil => []
  | leaf name type? rest => leafLine name type? :: rest.lines
  | node name children rest => openLine name :: (children.lines ++ closeLine :: rest.lines)

/-- A name with its first letter in upper case. -/
def cap (name : Name) : Text :=
  match name.1 with
  | [] => []
  | c :: rest => c.toUpper :: rest

/-- The type of the selection at a path below an operation. -/
def shapeAt (operation : Text) (path : List Name) : Text := operation ++ path.flatMap cap

/-- The fields of a forest that stands at a path below an operation. -/
def fields (operation : Text) (path : List Name) : Forest → List Field
  | nil => []
  | leaf name type? rest =>
    ⟨name.1, (type?.map Subtype.val).getD Field.scalarType, []⟩ :: rest.fields operation path
  | node name children rest =>
    ⟨name.1, shapeAt operation (path ++ [name]), children.fields operation (path ++ [name])⟩
      :: rest.fields operation path

end Forest

/-- A variable that can be written. -/
structure Parameter where
  name : Name
  type : TypeName
  deriving DecidableEq

namespace Parameter

/-- The variable of a parameter. -/
def toVariable (p : Parameter) : Variable := ⟨p.name.1, p.type.1⟩

/-- A parameter as it is written. -/
def print (p : Parameter) : Text := '$' :: (p.name.1 ++ [':', ' '] ++ p.type.1)

end Parameter

/-- What a canonical document says. -/
structure Source where
  kind : OperationKind
  name : Name
  parameters : List Parameter
  distinct : parameters.Nodup
  forest : Forest
  proper : forest.Proper

namespace Source

/-- The parameters in their parentheses, nothing when there are none. -/
def signature (parameters : List Parameter) : Text :=
  if parameters = [] then []
  else ['('] ++ join [',', ' '] (parameters.map Parameter.print) ++ [')']

/-- The head line. -/
def headLine (s : Source) : Text :=
  s.kind.keyword ++ [' '] ++ s.name.1 ++ signature s.parameters ++ [' ', '{']

/-- The lines of a source without the blanks at their front. -/
def lines (s : Source) : List Text := s.headLine :: (s.forest.lines ++ [Forest.closeLine])

/-- The document of a source. Line number `i` is indented by `indent i` blanks; the last line may
be ended by a line feed or by the document. -/
def print (s : Source) (indent : Nat → Nat) (lastFeed : Bool) : Text :=
  joinLines (s.lines.mapIdx fun i line => List.replicate (indent i) ' ' ++ line)
    ++ if lastFeed then ['\n'] else []

/-- The operation that a source describes. -/
def operation (s : Source) : Operation where
  kind := s.kind
  name := s.name.1
  parameters := s.parameters.map Parameter.toVariable
  fields := s.forest.fields s.name.1 []

end Source

end GqlScan.Canonical
