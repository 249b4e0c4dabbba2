import GqlScan.Text.Basic

/-!
# Lines

A text is cut into lines at every line boundary: the line feed, the carriage return, the pair
of both (one boundary), the vertical tab, the form feed, three of the information separators,
the next-line character and the Unicode line and paragraph separators. No empty line follows a
boundary that ends the text.

Main statement: `flatMap_full_lines`, that the lines with their boundaries make up the text.
-/

namespace GqlScan.Text

/-- Whether a character is a line boundary by itself. -/
def isLineBreak (c : Char) : Bool :=
  let n := c.toNat
  (0x0A ≤ n && n ≤ 0x0D) || (0x1C ≤ n && n ≤ 0x1E) || n == 0x85 || n == 0x2028 || n == 0x2029

/-- A line and the boundary that ends it, which only a last line may lack. -/
structure Line where
  text : Text
  ending : Text
  deriving DecidableEq, Repr, Inhabited

/-- A line together with its boundary. -/
def Line.full (l : Line) : Text := l.text ++ l.ending

/-- Put a character in front of the first of some lines. -/
def consLine (c : Char) : List Line → List Line
  | [] => [⟨[c], []⟩]
  | l :: ls => ⟨c :: l.text, l.ending⟩ :: ls

/-- The lines of a text. -/
def lines : Text → List Line
  | [] => []
  | '\r' :: '\n' :: rest => ⟨[], ['\r', '\n']⟩ :: lines rest
  | c :: rest => if isLineBreak c then ⟨[], [c]⟩ :: lines rest else consLine c (lines rest)

/-- The lines of a text, without their boundaries. -/
def lineTexts (t : Text) : List Text := (lines t).map Line.text

/-- Every line boundary written as a single line feed: a carriage return, with the line feed
that may follow it, becomes one line feed. -/
def unifyLineFeeds : Text → Text
  | [] => []
  | '\r' :: '\n' :: rest => '\n' :: unifyLineFeeds rest
  | c :: rest => (if c = '\r' then '\n' else c) :: unifyLineFeeds rest

theorem flatMap_full_consLine (c : Char) (ls : List Line) :
    (consLine c ls).flatMap Line.full = c :: ls.flatMap Line.full := by
  cases ls <;> simp [consLine, Line.full]

/-- Cutting a text into lines loses nothing. -/
theorem flatMap_full_lines (t : Text) : (lines t).flatMap Line.full = t := by
  fun_induction lines t with
  | case1 => rfl
  | case2 rest ih => simp [Line.full, ih]
  | case3 c rest h hb ih => simp [Line.full, ih]
  | case4 c rest h hb ih => rw [flatMap_full_consLine, ih]

end GqlScan.Text
