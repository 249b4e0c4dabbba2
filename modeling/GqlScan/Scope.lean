import GqlScan.Comment
import GqlScan.Header

/-!
# The scope of an operation

A document is followed line by line for one operation name. The scope opens at a header with
that name and closes at a header with any other. Inside it, the running depth of braces, which
never falls below zero, tells a line of the operation from a line of its selection set.
-/

namespace GqlScan

open Text

/-- Where a line stands with regard to the operation that is followed. -/
inductive Standing where
  | outside
  | inComment
  | inOperation
  | inSelection
  deriving DecidableEq, Repr

/-- Whether a line of this standing belongs to the operation. -/
def Standing.belongs : Standing → Bool
  | .inOperation | .inSelection => true
  | .outside | .inComment => false

/-- What is known between two lines: whether a block comment is open, whether the scope is open,
and the depth of braces in it. -/
structure Scope where
  inComment : Bool := false
  inside : Bool := false
  depth : Nat := 0
  deriving DecidableEq, Repr

namespace Scope

/-- The scope after a trimmed live line has been checked for a header. -/
def enter (target : Text) (s : Scope) (line : Text) : Scope :=
  match Header.find? line with
  | some h => { s with inside := h.name == target, depth := 0 }
  | none => s

/-- The scope after the braces of a trimmed live line inside it. Surplus closing braces are
forgotten. -/
def nest (s : Scope) (line : Text) : Scope :=
  { s with depth := s.depth + line.count '{' - line.count '}' }

/-- Advance over a trimmed live line. -/
def advance (target : Text) (s : Scope) (line : Text) : Scope × Standing :=
  let entered := s.enter target line
  if entered.inside then
    -- a block that opens and closes on one line leaves no depth, but has its brace on the line
    let nested := entered.nest line
    (nested, if 0 < nested.depth ∨ '{' ∈ line then .inSelection else .inOperation)
  else (entered, .outside)

/-- Advance over a line of the document. A line that is not live changes the comment state
alone. -/
def feed (target : Text) (s : Scope) (line : Text) : Scope × Standing :=
  let verdict := Comment.judge s.inComment line
  let s' := { s with inComment := verdict.inComment }
  if verdict.live then s'.advance target (trim line) else (s', .inComment)

/-- The standings of consecutive lines. -/
def standings (target : Text) (s : Scope) : List Text → List Standing
  | [] => []
  | line :: rest => (s.feed target line).2 :: standings target (s.feed target line).1 rest

/-- The trimmed ones of some lines that belong to the operation. -/
def collect (target : Text) (s : Scope) : List Text → List Text
  | [] => []
  | line :: rest =>
    let later := collect target (s.feed target line).1 rest
    if (s.feed target line).2.belongs then trim line :: later else later

/-- The trimmed live lines of a document that belong to an operation. -/
def linesOf (content target : Text) : List Text := collect target {} (lineTexts content)

end Scope

end GqlScan
