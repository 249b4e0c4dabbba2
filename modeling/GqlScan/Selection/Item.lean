import GqlScan.Field
import GqlScan.Selection.LineShape
import GqlScan.Selection.LogicalLine

/-!
# The items of a selection set

One selection set, without what is nested in it, is a list of items: fields, selections with the
lines of their block, and lines that are neither. A line that is neither but leaves a brace open
is skipped together with its block. Of several items with one name the first wins.

Main statement: `braces_body_lt`, that the block of an item holds fewer opening braces than the
lines the item was found in. That is what ends the scan of nested selections.
-/

namespace GqlScan.Selection

open Text

/-- What a logical line of a selection set stands for. -/
inductive Item where
  /-- a field and its type -/
  | leaf (name type : Text)
  /-- a selection, the lines of its block and whether the block goes past its first line -/
  | nested (name : Text) (body : List Text) (spread : Bool)
  /-- a line that is passed over -/
  | unrecognised (line : Text)
  deriving DecidableEq, Repr

/-- The name that an item occupies in its selection set. -/
def Item.name? : Item → Option Text
  | .leaf name _ => some name
  | .nested name _ _ => some name
  | .unrecognised _ => none

/-- The name and the type of a line that names a field, with or without an alias. -/
def leaf? (line : Text) : Option (Text × Text) :=
  match LineShape.simple? line with
  | some (name, type?) => some (name, type?.getD Field.scalarType)
  | none => (LineShape.aliased? line).map fun name => (name, Field.scalarType)

/-- The items of some logical lines. -/
def items : List Text → List Item
  | [] => []
  | line :: rest =>
    match LineShape.opening? line with
    | some o =>
      let block := Block.take o.after rest
      .nested o.name block.body (0 < block.consumed) :: items (rest.drop block.consumed)
    | none =>
      match leaf? line with
      | some (name, type) => .leaf name type :: items rest
      | none =>
        -- the block behind the first brace goes with the line that leaves it open
        if line.count '}' < line.count '{' then
          items (rest.drop (Block.take (Text.after '{' line) rest).consumed)
        else .unrecognised line :: items rest
termination_by lines => lines.length

/-- The items whose name is new. Items without a name are all kept. -/
def firstWins (seen : List Text) : List Item → List Item
  | [] => []
  | item :: rest =>
    match item.name? with
    | none => item :: firstWins seen rest
    | some name =>
      if name ∈ seen then firstWins seen rest else item :: firstWins (name :: seen) rest

/-- The items of a selection set, each name once. -/
def itemsOf (lines : List Text) : List Item := firstWins [] (items (LogicalLine.ofLines lines))

/-! ## The block of an item is smaller than its surroundings -/

theorem firstWins_sublist (seen : List Text) (its : List Item) :
    (firstWins seen its).Sublist its := by
  fun_induction firstWins seen its with
  | case1 => exact List.Sublist.refl _
  | case2 seen item rest h ih => exact ih.cons_cons item
  | case3 seen item rest name h hs ih => exact ih.cons item
  | case4 seen item rest name h hs ih => exact ih.cons_cons item

theorem braces_body_lt_of_mem_items {lines : List Text} {name : Text} {body : List Text}
    {spread : Bool} (h : Item.nested name body spread ∈ items lines) :
    Block.braces body < Block.braces lines := by
  fun_induction items lines with
  | case1 => cases h
  | case2 line rest o ho block ih =>
    have hlt := LineShape.count_after_lt ho
    have hdrop := Block.braces_drop_le block.consumed rest
    rcases List.mem_cons.1 h with h | h
    · cases h
      have : Block.braces block.body ≤ o.after.count '{' + Block.braces rest :=
        Block.count_braces_take_le o.after rest
      rw [Block.braces_cons]
      omega
    · have := ih h
      rw [Block.braces_cons]
      omega
  | case3 line rest ho _ _ hi ih =>
    rcases List.mem_cons.1 h with h | h
    · cases h
    · have := ih h
      rw [Block.braces_cons]
      omega
  | case4 line rest ho hi hb ih =>
    have hdrop := Block.braces_drop_le (Block.take (Text.after '{' line) rest).consumed rest
    have := ih h
    rw [Block.braces_cons]
    omega
  | case5 line rest ho hi hb ih =>
    rcases List.mem_cons.1 h with h | h
    · cases h
    · have := ih h
      rw [Block.braces_cons]
      omega

/-- The block of an item holds fewer opening braces than the lines it was found in. -/
theorem braces_body_lt {lines : List Text} {name : Text} {body : List Text} {spread : Bool}
    (h : Item.nested name body spread ∈ itemsOf lines) :
    Block.braces body < Block.braces lines :=
  Nat.lt_of_lt_of_le (braces_body_lt_of_mem_items ((firstWins_sublist _ _).subset h))
    (LogicalLine.braces_ofLines_le lines)

end GqlScan.Selection
