import GqlScan.Text.Basic

/-!
# Paths

Lexical paths with forward slashes. Empty components and single dots vanish when a text is read,
double dots stay; exactly two leading slashes are kept apart from one or more than two. Only
`absolute` resolves double dots, by the text alone.
-/

namespace GqlScan

open Text

/-- Where a path starts. -/
inductive Anchor where
  | relative
  | slash
  | twoSlashes
  deriving DecidableEq, Repr

/-- The text of an anchor. -/
def Anchor.text : Anchor → Text
  | .relative => []
  | .slash => ['/']
  | .twoSlashes => ['/', '/']

/-- A path: its start and its components. -/
structure Path where
  anchor : Anchor
  parts : List Text
  deriving DecidableEq, Repr

namespace Path

/-- The component that stands for the directory above. -/
def up : Text := ['.', '.']

/-- The anchor of a path that begins with a number of slashes. -/
def anchorOf : Nat → Anchor
  | 0 => .relative
  | 2 => .twoSlashes
  | _ => .slash

/-- Whether a component counts. -/
def isPart (t : Text) : Bool := t != [] && t != ['.']

/-- Read a path. -/
def ofText (t : Text) : Path where
  anchor := anchorOf (t.takeWhile (· == '/')).length
  parts := (splitOn '/' t).filter isPart

/-- Write a path; the empty one is a single dot. -/
def toText (p : Path) : Text :=
  if p.anchor = .relative ∧ p.parts = [] then ['.'] else p.anchor.text ++ join ['/'] p.parts

/-- A path seen from another: itself when it has an anchor. -/
def join (base p : Path) : Path :=
  if p.anchor = .relative then { base with parts := base.parts ++ p.parts } else p

/-- A component inside a directory. -/
def child (base : Path) (name : Text) : Path := base.join (ofText name)

/-- The directory that holds a path. -/
def parent (p : Path) : Path := { p with parts := p.parts.dropLast }

/-- The last component, empty when there is none. -/
def name (p : Path) : Text := p.parts.getLast?.getD []

/-- The suffix of a name: its last dot and what follows, provided that something follows and
something stands before. -/
def suffixOf (name : Text) : Text :=
  let tail := (name.reverse.takeWhile (· != '.')).reverse
  if '.' ∈ name ∧ tail ≠ [] ∧ tail.length + 1 < name.length then '.' :: tail else []

/-- The suffix of a path. -/
def suffix (p : Path) : Text := suffixOf p.name

/-- The suffix of the documents that are scanned. -/
def documentSuffix : Text := ['.', 'g', 'q', 'l']

/-- Whether a path names a document that is scanned, by its suffix alone. -/
def isDocument (p : Path) : Bool := p.suffix == documentSuffix

/-- Follow a component: the one that stands for the directory above leaves the last component, any
other is added. -/
def enter {α : Type} [DecidableEq α] (up : α) (parts : List α) (part : α) : List α :=
  if part = up then parts.dropLast else parts ++ [part]

/-- Components with their double dots resolved; above the root there is only the root. -/
def resolve {α : Type} [DecidableEq α] (up : α) (parts : List α) : List α :=
  parts.foldl (enter up) []

/-- The absolute form of a path seen from a directory, without double dots. -/
def absolute (directory p : Path) : Path := ⟨.slash, resolve up (directory.join p).parts⟩

/-- Whether a path holds the null character, which no file name can. -/
def hasNull (p : Path) : Bool := p.parts.any (·.contains '\x00')

end Path

end GqlScan
