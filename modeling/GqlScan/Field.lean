import GqlScan.Text.Upper

/-!
# Fields

A field is what a selection set asks for or a schema type declares. A field whose selection set
spans several lines carries the fields found in it; its type is then the name made up for that
shape from the name of the owner and its own.
-/

namespace GqlScan

open Text

/-- A selected or declared field, with the fields selected under it. -/
structure Field where
  name : Text
  type : Text
  selections : List Field := []
  deriving Repr, Inhabited

namespace Field

/-- The type of a field that is selected without a type. -/
def scalarType : Text := ['S', 't', 'r', 'i', 'n', 'g']

/-- The type of a field whose selections are not followed. -/
def objectType : Text := ['O', 'b', 'j', 'e', 'c', 't']

/-- The name made up for the shape of a nested selection: the owner followed by the field name
with its first letter in upper case. -/
def shapeName (owner name : Text) : Text := owner ++ capitalize name

/-- Whether a field has selections of its own. -/
def isNested (f : Field) : Bool := !f.selections.isEmpty

/-- Two fields are alike when name and type agree; what is selected under them plays no part. -/
def alike (f g : Field) : Bool := f.name == g.name && f.type == g.type

/-- What takes part in telling fields apart. -/
def key (f : Field) : Text × Text := (f.name, f.type)

/-! ## Equality of whole fields, selections included -/

mutual

/-- Decide whether two fields agree, selections included. -/
def decEq : (f g : Field) → Decidable (f = g)
  | ⟨n, t, s⟩, ⟨n', t', s'⟩ =>
    if hn : n = n' then
      if ht : t = t' then
        match decEqAll s s' with
        | isTrue hs => isTrue (by rw [hn, ht, hs])
        | isFalse hs => isFalse fun h => hs (by injection h)
      else isFalse fun h => ht (by injection h)
    else isFalse fun h => hn (by injection h)

/-- Decide whether two lists of fields agree. -/
def decEqAll : (fs gs : List Field) → Decidable (fs = gs)
  | [], [] => isTrue rfl
  | [], _ :: _ => isFalse fun h => by cases h
  | _ :: _, [] => isFalse fun h => by cases h
  | f :: fs, g :: gs =>
    match decEq f g with
    | isTrue hf =>
      match decEqAll fs gs with
      | isTrue hs => isTrue (by rw [hf, hs])
      | isFalse hs => isFalse fun h => hs (by injection h)
    | isFalse hf => isFalse fun h => hf (by injection h)

end

instance : DecidableEq Field := decEq

end Field

end GqlScan
