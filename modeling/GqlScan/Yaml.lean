import GqlScan.Text.Points

/-!
# YAML

Reading YAML is left to a library. What it makes of a text is a value of its own, which is looked at
from outside: whether it is null, a text, a list or a mapping, and what these hold. Of any other
value, be it a number, a date or a set, only its type and its truth are seen.
-/

namespace GqlScan.Yaml

open Text

/-- What is seen of a value. The keys of a mapping are all different. -/
inductive View (V : Type) where
  | null
  | str (t : Points)
  | list (items : List V)
  | map (entries : List (V × V))
  | other (type : Text) (truthy : Bool)

/-- What comes of reading a text. -/
inductive Reading (V : Type) where
  | value (v : V)
  /-- the text is no YAML -/
  | notYaml (problem : Text)
  /-- the library fails with an error of another class -/
  | raised (error message : Text)

/-- A library that reads YAML: what it makes of a text, what is seen of a value, and the text of a
value in a message. -/
structure Library (V : Type) where
  load : Text → Reading V
  view : V → View V
  shown : V → Text

namespace Library

variable {V : Type} (yaml : Library V)

/-- Whether a value is null. -/
def isNull (v : V) : Bool :=
  match yaml.view v with
  | .null => true
  | _ => false

/-- Whether a value counts as absent: null, and all that is empty or not true. -/
def isFalsy (v : V) : Bool :=
  match yaml.view v with
  | .null => true
  | .str t => t.isEmpty
  | .list items => items.isEmpty
  | .map entries => entries.isEmpty
  | .other _ truthy => !truthy

/-- Whether a key is a text. -/
def isKey (name : Text) (key : V) : Bool :=
  match yaml.view key with
  | .str t => t == Points.ofText name
  | _ => false

/-- The value under a text key. A null value counts like a key that is not there. -/
def field? (name : Text) (entries : List (V × V)) : Option V :=
  ((entries.find? fun entry => yaml.isKey name entry.1).map Prod.snd).filter (!yaml.isNull ·)

end Library

end GqlScan.Yaml
