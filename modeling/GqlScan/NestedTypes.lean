import GqlScan.Field

/-!
# Nested types

The fields of nested selections, kept under the names made up for their shapes. Names stand in
the order of their first registration; registering a name again replaces its fields and keeps
its place.
-/

namespace GqlScan

open Text

/-- Fields by type name, each name at most once. -/
structure NestedTypes where
  entries : List (Text × List Field) := []
  nodup : (entries.map Prod.fst).Nodup := by decide

namespace NestedTypes

/-- No names. -/
def empty : NestedTypes := {}

instance : Inhabited NestedTypes := ⟨empty⟩

@[ext] theorem ext {r s : NestedTypes} (h : r.entries = s.entries) : r = s := by
  cases r; cases s; cases h; rfl

/-- Put fields under a name: in its place when the name is there, else at the end. -/
def put (name : Text) (fields : List Field) : List (Text × List Field) → List (Text × List Field)
  | [] => [(name, fields)]
  | entry :: rest =>
    if entry.1 = name then (name, fields) :: rest else entry :: put name fields rest

/-- The names after `put`: a new one at the end, an old one where it was. -/
theorem map_fst_put (name : Text) (fields : List Field) (entries : List (Text × List Field)) :
    (put name fields entries).map Prod.fst
      = if name ∈ entries.map Prod.fst then entries.map Prod.fst
        else entries.map Prod.fst ++ [name] := by
  induction entries with
  | nil => rfl
  | cons entry rest ih =>
    unfold put
    by_cases h : entry.1 = name
    · simp [h]
    · have h' : ¬ name = entry.1 := fun e => h e.symm
      rw [if_neg h, List.map_cons, ih, List.map_cons]
      by_cases hm : name ∈ rest.map Prod.fst
      · rw [if_pos hm, if_pos (List.mem_cons_of_mem _ hm)]
      · rw [if_neg hm, if_neg (by rw [List.mem_cons, not_or]; exact ⟨h', hm⟩)]
        rfl

/-- `put` never repeats a name. -/
theorem nodup_put {name : Text} {fields : List Field} {entries : List (Text × List Field)}
    (h : (entries.map Prod.fst).Nodup) : ((put name fields entries).map Prod.fst).Nodup := by
  rw [map_fst_put]
  split
  · exact h
  · rename_i hm
    rw [List.nodup_append]
    refine ⟨h, by simp, ?_⟩
    intro a ha b hb
    rw [List.mem_singleton.1 hb]
    exact fun e => hm (e ▸ ha)

/-- Register the fields of a nested selection, replacing an earlier entry of the same name. -/
def register (types : NestedTypes) (name : Text) (fields : List Field) : NestedTypes where
  entries := put name fields types.entries
  nodup := nodup_put types.nodup

/-- The fields registered under a name. -/
def get? (types : NestedTypes) (name : Text) : Option (List Field) := types.entries.lookup name

/-- The registered names, in order of first registration. -/
def names (types : NestedTypes) : List Text := types.entries.map Prod.fst

/-- Whether a name is registered. -/
def contains (types : NestedTypes) (name : Text) : Bool := types.names.contains name

/-- The number of registered names. -/
def size (types : NestedTypes) : Nat := types.entries.length

/-- Register several selections, first to last. -/
def registerAll (types : NestedTypes) (shapes : List (Text × List Field)) : NestedTypes :=
  shapes.foldl (fun r shape => r.register shape.1 shape.2) types

end NestedTypes

/-! ## The nested selections of a field tree -/

namespace Field

mutual

/-- The fields with selections in a field, itself included: inner ones before outer ones. -/
def nested : Field → List Field
  | ⟨name, type, selections⟩ =>
    nestedAll selections ++ if selections.isEmpty then [] else [⟨name, type, selections⟩]

/-- The fields with selections in some fields, from left to right. -/
def nestedAll : List Field → List Field
  | [] => []
  | f :: fs => nested f ++ nestedAll fs

end

/-- What is registered for a field with selections: these selections under its type. -/
def shape (f : Field) : Text × List Field := (f.type, f.selections)

/-- What is registered for some fields and all that is below them. -/
def shapesAll (fs : List Field) : List (Text × List Field) := (nestedAll fs).map shape

end Field

end GqlScan
