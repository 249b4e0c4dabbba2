import GqlScan.Selection.Item

/-!
# The fields of a selection set

A selection set is scanned into a tree of fields. A selection whose block goes past its first line
is scanned in turn, under the name made up from its owner and its own; one that stays on a single
line, or in which no field is found, is recorded as an object without selections.

The scan ends because a nested block holds fewer opening braces than the lines around it.
-/

namespace GqlScan.Selection

open Text

/-- The field of a selection in which `inner` was found. -/
def nestedField (owner name : Text) (inner : List Field) : Field :=
  if inner.isEmpty then ⟨name, Field.objectType, []⟩
  else ⟨name, Field.shapeName owner name, inner⟩

/-- The fields of a selection set that belongs to `owner`. -/
def fields (owner : Text) (lines : List Text) : List Field :=
  (itemsOf lines).attach.filterMap fun
    | ⟨.leaf name type, _⟩ => some ⟨name, type, []⟩
    | ⟨.nested name body spread, h⟩ =>
      have := braces_body_lt h
      some (nestedField owner name
        (if spread then fields (Field.shapeName owner name) body else []))
    | ⟨.unrecognised _, _⟩ => none
termination_by Block.braces lines

/-- The field of an item. -/
def Item.field? (owner : Text) : Item → Option Field
  | .leaf name type => some ⟨name, type, []⟩
  | .nested name body spread =>
    some (nestedField owner name (if spread then fields (Field.shapeName owner name) body else []))
  | .unrecognised _ => none

/-- The fields of a selection set are those of its items. -/
theorem fields_eq (owner : Text) (lines : List Text) :
    fields owner lines = (itemsOf lines).filterMap (Item.field? owner) := by
  rw [fields]
  conv => rhs; rw [← List.attach_map_subtype_val (itemsOf lines)]
  rw [List.filterMap_map]
  congr 1
  funext ⟨item, h⟩
  cases item <;> rfl

/-- The lines of a selection set, at any depth, that are passed over. What stands in a selection
that loses to an earlier one of its name, or in a skipped block, is not looked at. -/
def passedOver (lines : List Text) : List Text :=
  (itemsOf lines).attach.flatMap fun
    | ⟨.leaf _ _, _⟩ => []
    | ⟨.nested _ body spread, h⟩ =>
      have := braces_body_lt h
      if spread then passedOver body else []
    | ⟨.unrecognised line, _⟩ => [line]
termination_by Block.braces lines

end GqlScan.Selection
