import GqlScan.Text.Blank

/-!
# Operation headers

A header is one of the words `query`, `mutation` and `subscription`, at least one blank, and a
name. It is looked for anywhere in a line, also inside a longer word, and the first place wins;
the name is as long as possible.
-/

namespace GqlScan

open Text

/-- The kinds of operation. -/
inductive OperationKind where
  | query
  | mutation
  | subscription
  deriving DecidableEq, Repr

namespace OperationKind

/-- The word that introduces an operation of a kind. -/
def keyword : OperationKind → Text
  | .query => ['q', 'u', 'e', 'r', 'y']
  | .mutation => ['m', 'u', 't', 'a', 't', 'i', 'o', 'n']
  | .subscription => ['s', 'u', 'b', 's', 'c', 'r', 'i', 'p', 't', 'i', 'o', 'n']

/-- All kinds. -/
def all : List OperationKind := [.query, .mutation, .subscription]

/-- The kind whose word a text starts with, and the text after the word. No two words start
alike, so at most one kind fits. -/
def ofFront? (t : Text) : Option (OperationKind × Text) :=
  all.findSome? fun kind => (kind.keyword.isPrefixOf? t).map fun rest => (kind, rest)

end OperationKind

/-- A name at the front of a text, as long as possible, and the text after it. -/
def Text.name? (t : Text) : Option (Text × Text) :=
  if t.takeWhile isNameChar = [] then none
  else some (t.takeWhile isNameChar, t.dropWhile isNameChar)

theorem Text.name?_suffix {t n rest : Text} (h : name? t = some (n, rest)) : rest <:+ t := by
  unfold name? at h
  split at h
  · cases h
  · cases h; exact List.dropWhile_suffix _

/-- The kind and the name of an operation. -/
structure Header where
  kind : OperationKind
  name : Text
  deriving DecidableEq, Repr

namespace Header

/-- A header at the front of a text, and the text after its name. -/
def front? (t : Text) : Option (Header × Text) := do
  let (kind, more) ← OperationKind.ofFront? t
  -- the word and the name must not run together
  if more.head?.any isBlank then
    let (name, rest) ← name? (trimStart more)
    return (⟨kind, name⟩, rest)
  else none

/-- The leftmost header of a line, and the text after its name. -/
def locate? : Text → Option (Header × Text)
  | [] => none
  | c :: rest =>
    match front? (c :: rest) with
    | some found => some found
    | none => locate? rest

/-- The leftmost header of a line. -/
def find? (line : Text) : Option Header := (locate? line).map Prod.fst

/-- The text after the header of a line, or the whole line when it has none. -/
def after (line : Text) : Text :=
  match locate? line with
  | some (_, rest) => rest
  | none => line

end Header

end GqlScan
