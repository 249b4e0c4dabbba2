import GqlScan.Text.Blank
import GqlScan.Text.Lines

/-!
# Comments

A line is *live* when it takes part in scanning. Lines that start with a number sign are not,
and neither are lines inside a block comment or lines that hold its delimiter, three double
quotes. The only state is whether a block comment is open: a line with an odd number of
delimiters opens or closes it.
-/

namespace GqlScan.Comment

open Text

/-- The number of non-overlapping block delimiters, read from the left. -/
def delimiterCount : Text → Nat
  | '"' :: '"' :: '"' :: rest => delimiterCount rest + 1
  | _ :: rest => delimiterCount rest
  | [] => 0

/-- Whether a line starts a line comment. -/
def isLineComment (line : Text) : Bool := line.head? == some '#'

/-- What is said of a line: whether it is live, and whether a block comment is open after it. -/
structure Verdict where
  live : Bool
  inComment : Bool
  deriving DecidableEq, Repr

/-- Judge a trimmed line, given whether a block comment is open before it. A line comment never
changes that; a line with delimiters is not live and flips it when their number is odd. -/
def classify (inComment : Bool) (line : Text) : Verdict :=
  if isLineComment line then ⟨false, inComment⟩
  else if delimiterCount line = 0 then ⟨!inComment, inComment⟩
  else ⟨false, if delimiterCount line % 2 = 1 then !inComment else inComment⟩

/-- Judge a line as it stands in a document. -/
def judge (inComment : Bool) (line : Text) : Verdict := classify inComment (trim line)

/-- The verdicts on consecutive lines. -/
def verdicts (inComment : Bool) : List Text → List Verdict
  | [] => []
  | line :: rest =>
    judge inComment line :: verdicts (judge inComment line).inComment rest

/-- Whether a block comment is open after some lines. -/
def openAfter (inComment : Bool) (lines : List Text) : Bool :=
  lines.foldl (fun state line => (judge state line).inComment) inComment

/-- A line with its number, counted from one. -/
structure NumberedLine where
  number : Nat
  text : Text
  deriving DecidableEq, Repr

/-- The live ones of some lines, trimmed, of which the first has the given number. -/
def liveFrom (inComment : Bool) (number : Nat) : List Text → List NumberedLine
  | [] => []
  | line :: rest =>
    let verdict := judge inComment line
    let later := liveFrom verdict.inComment (number + 1) rest
    if verdict.live then ⟨number, trim line⟩ :: later else later

/-- The live lines of a document, trimmed and numbered. -/
def liveLines (content : Text) : List NumberedLine := liveFrom false 1 (lineTexts content)

/-- Scanning two runs of lines carries the comment state and the line number across. -/
theorem liveFrom_append (inComment : Bool) (number : Nat) (xs ys : List Text) :
    liveFrom inComment number (xs ++ ys)
      = liveFrom inComment number xs
        ++ liveFrom (openAfter inComment xs) (number + xs.length) ys := by
  induction xs generalizing inComment number with
  | nil => rfl
  | cons x xs ih =>
    have hn : number + 1 + xs.length = number + (x :: xs).length := by
      rw [List.length_cons]; omega
    simp only [List.cons_append, liveFrom, openAfter, List.foldl_cons]
    rw [ih, hn]
    split
    · rfl
    · rfl

end GqlScan.Comment
