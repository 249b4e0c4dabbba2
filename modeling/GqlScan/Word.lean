import GqlScan.Text.Word

/-!
# The word at a column

The word around a column of a line is the longest run of word characters that the column lies in.
Every column of a run gives the same word, and a column outside every run, or outside the line,
gives none.
-/

namespace GqlScan

open Text

/-- The word at a column of a line, empty when there is none. -/
def wordAt (line : Text) (column : Int) : Text :=
  if column < 0 then []
  else
    match line.drop column.toNat with
    | [] => []
    | c :: rest =>
      if isWordChar c then
        ((line.take column.toNat).reverse.takeWhile isWordChar).reverse
          ++ c :: rest.takeWhile isWordChar
      else []

end GqlScan
