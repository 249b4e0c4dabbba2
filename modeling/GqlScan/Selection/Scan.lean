import GqlScan.NestedTypes
import GqlScan.Selection.Fields

/-!
# Scanning with registration

The scan of a selection set as it runs: line by line, with the names that are taken in the set and
the nested types that are known so far. A nested selection in which fields are found is registered
as soon as it is scanned, so an inner one before the one around it, and a selection whose name is
taken is neither scanned nor registered.
-/

namespace GqlScan

open Text

/-- Register the fields found in a nested selection, unless there are none. -/
def NestedTypes.adopt (types : NestedTypes) (name : Text) (inner : List Field) : NestedTypes :=
  if inner.isEmpty then types else types.register name inner

namespace Selection

theorem braces_body_lt_of_opening {line : Text} {rest : List Text} {o : LineShape.Opening}
    (h : LineShape.opening? line = some o) :
    Block.braces (LogicalLine.ofLines (Block.take o.after rest).body)
      < Block.braces (line :: rest) := by
  have h1 := LogicalLine.braces_ofLines_le (Block.take o.after rest).body
  have h2 := Block.count_braces_take_le o.after rest
  have h3 := LineShape.count_after_lt h
  rw [Block.braces_cons]
  omega

theorem braces_drop_cons_le (n : Nat) (line : Text) (rest : List Text) :
    Block.braces (rest.drop n) ≤ Block.braces (line :: rest) := by
  have := Block.braces_drop_le n rest
  rw [Block.braces_cons]
  omega

theorem length_drop_lt_cons (n : Nat) (line : Text) (rest : List Text) :
    (rest.drop n).length < (line :: rest).length := by
  rw [List.length_cons, List.length_drop]
  omega

/-- Scan logical lines of a selection set that belongs to `owner`. -/
def scanLines (owner : Text) (taken : List Text) (types : NestedTypes) (lines : List Text) :
    List Field × NestedTypes :=
  match lines with
  | [] => ([], types)
  | line :: rest =>
    match _h : LineShape.opening? line with
    | some o =>
      let block := Block.take o.after rest
      -- the block of a name that is taken is passed over, and nothing in it is registered
      if o.name ∈ taken then scanLines owner taken types (rest.drop block.consumed)
      else
        let shape := Field.shapeName owner o.name
        let inner :=
          if 0 < block.consumed then scanLines shape [] types (LogicalLine.ofLines block.body)
          else ([], types)
        let later :=
          scanLines owner (o.name :: taken) (inner.2.adopt shape inner.1)
            (rest.drop block.consumed)
        (nestedField owner o.name inner.1 :: later.1, later.2)
    | none =>
      match leaf? line with
      | some (name, type) =>
        if name ∈ taken then scanLines owner taken types rest
        else
          let later := scanLines owner (name :: taken) types rest
          (⟨name, type, []⟩ :: later.1, later.2)
      | none =>
        if line.count '}' < line.count '{' then
          scanLines owner taken types
            (rest.drop (Block.take (Text.after '{' line) rest).consumed)
        else scanLines owner taken types rest
termination_by (Block.braces lines, lines.length)
decreasing_by
  -- an inner set holds fewer braces; the lines behind a line hold no more, and are fewer
  · exact Prod.Lex.right' _ (braces_drop_cons_le _ line rest) (length_drop_lt_cons _ line rest)
  · exact Prod.Lex.left _ _ (braces_body_lt_of_opening _h)
  · exact Prod.Lex.right' _ (braces_drop_cons_le _ line rest) (length_drop_lt_cons _ line rest)
  · exact Prod.Lex.right' _ (braces_drop_cons_le 0 line rest) (length_drop_lt_cons 0 line rest)
  · exact Prod.Lex.right' _ (braces_drop_cons_le 0 line rest) (length_drop_lt_cons 0 line rest)
  · exact Prod.Lex.right' _ (braces_drop_cons_le _ line rest) (length_drop_lt_cons _ line rest)
  · exact Prod.Lex.right' _ (braces_drop_cons_le 0 line rest) (length_drop_lt_cons 0 line rest)

/-- Scan a selection set that belongs to `owner`: its fields, and the nested types afterwards. -/
def scan (types : NestedTypes) (owner : Text) (lines : List Text) : List Field × NestedTypes :=
  scanLines owner [] types (LogicalLine.ofLines lines)

end Selection

end GqlScan
