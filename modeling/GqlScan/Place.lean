import GqlScan.Disk
import GqlScan.Text.Points

/-!
# Places

Where an output directory is: the names on the way to it from the root. A text that names a place is
read like a path. The names are looked up from the first to the last, so the first that no file can
have decides what is wrong with the text.
-/

namespace GqlScan

open Text

/-- The names in code points that are read as a path: the pieces between slashes, without empty ones
and single dots. -/
def Points.names (t : Points) : List Points :=
  (splitOn (.char '/') t).filter fun name => name != [] && name != [.char '.']

/-- A place, by the names on the way to it. -/
structure Place where
  names : List Points
  deriving DecidableEq, Repr

namespace Place

/-- The name that stands for the directory above. -/
def up : Points := Points.ofText Path.up

/-- Write a place. -/
def text (p : Place) : Points := .char '/' :: join [.char '/'] p.names

/-- Why code points name no place. -/
inductive Fault where
  | unwritable (error : Points.EncodeError)
  | nullCharacter
  deriving DecidableEq, Repr

/-- The wording of a fault. -/
def Fault.message : Fault → Text
  | unwritable error => error.message
  | nullCharacter => nullCharacterMessage

/-- What is wrong with a path that is looked up. -/
def lookupFault? (path : Points) : Option Fault :=
  match path.encodeError? with
  | some error => some (.unwritable error)
  | none => if path.contains (.char '\x00') then some .nullCharacter else none

/-- Leave the last name on the way from a start. On a way that does not start at the root there may
be no name to leave; then the double dot stays. -/
def leave (start : Points) (way : List Points) : List Points :=
  if start = [] ∧ (way = [] ∨ way.getLast? = some up) then way ++ [up] else way.dropLast

/-- What is wrong with some names, looked up one after another behind a way from a start. -/
def fault? (start : Points) (way : List Points) : List Points → Option Fault
  | [] => none
  | name :: rest =>
    if name = up then fault? start (leave start way) rest
    else
      match lookupFault? (start ++ join [.char '/'] (way ++ [name])) with
      | some fault => some fault
      | none => fault? start (way ++ [name]) rest

/-- The place that code points name inside a folder, which is itself seen from a directory. -/
def find (directory folder : Path) (t : Points) : Except Fault Place :=
  let base : Path := if t.head? = some (.char '/') then ⟨.slash, []⟩ else folder
  let names := base.parts.map Points.ofText ++ t.names
  match fault? (if base.anchor = .relative then [] else [.char '/']) [] names with
  | some fault => .error fault
  | none =>
    let outer := if base.anchor = .relative then directory.parts.map Points.ofText else []
    .ok ⟨Path.resolve up (outer ++ names)⟩

end Place

end GqlScan
