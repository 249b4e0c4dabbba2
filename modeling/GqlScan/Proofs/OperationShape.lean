import GqlScan.Proofs.SelectionLines
import GqlScan.Proofs.Spelling

/-!
# The shape of an operation

Whatever a document says, an operation that is found in it is well-formed. Its names consist of
letters of names and its types of letters of types. No scope selects a name twice, for the first
selection of a name wins, and no variable is listed twice. A field with selections has the type that
is put together from the operation and the fields on the way to it.

Main statement: `wellFormed_of_step`, for a parser that may have answered any calls before.
-/

namespace GqlScan

open Text Canonical

/-! ## Paths -/

namespace Field

/-- A field stands at a path in some fields. The path names the fields around it, the outermost one
first, and then the field itself. -/
inductive At (f : Field) : List Text → List Field → Prop where
  | among {fs : List Field} : f ∈ fs → At f [f.name] fs
  | under {fs : List Field} {g : Field} {path : List Text} :
      g ∈ fs → At f path g.selections → At f (g.name :: path) fs

/-- A field stands somewhere in some fields when it stands there at a path. -/
theorem within_iff_exists_at {f : Field} {fs : List Field} :
    f.Within fs ↔ ∃ path, f.At path fs := by
  constructor
  · intro h
    induction h with
    | among hf => exact ⟨_, .among hf⟩
    | under hg _ ih =>
      obtain ⟨path, hpath⟩ := ih
      exact ⟨_, .under hg hpath⟩
  · rintro ⟨path, h⟩
    induction h with
    | among hf => exact .among hf
    | under hg _ ih => exact .under hg ih

theorem not_at_nil {f : Field} {path : List Text} : ¬ f.At path [] := by
  intro h
  cases h with
  | among hf => cases hf
  | under hg _ => cases hg

/-- No two of some fields have one name. -/
def Distinct (fs : List Field) : Prop := (fs.map Field.name).Nodup

end Field

/-- An operation is well-formed: it is spelled as it should be, every scope names its fields apart,
and the types of its nested selections tell where they stand. -/
structure Operation.WellFormed (o : Operation) : Prop where
  name : IsName o.name
  parameters : ∀ v ∈ o.parameters, IsName v.name ∧ IsTypeName v.type
  fields : ∀ (path : List Text) (f : Field), f.At path o.fields → f.Spelled
  -- a variable is its name and its type, so one name may be listed with two types
  parametersDistinct : o.parameters.Nodup
  fieldsDistinct : Field.Distinct o.fields
  selectionsDistinct : ∀ (path : List Text) (f : Field), f.At path o.fields →
    Field.Distinct f.selections
  nestedType : ∀ (path : List Text) (f : Field), f.At path o.fields → f.selections ≠ [] →
    f.type = o.name ++ path.flatMap capitalize

/-! ## Variables -/

namespace Variable

theorem spelled_of_front? {t rest : Text} {v : Variable} (h : front? t = some (v, rest)) :
    IsName v.name ∧ IsTypeName v.type := by
  obtain ⟨⟨name, more⟩, hn, h⟩ := Option.bind_eq_some_iff.1 h
  dsimp only at h
  split at h
  · split at h
    · cases h
    · rename_i hne
      cases h
      exact ⟨isName_of_name? hn, hne, fun c hc => List.mem_takeWhile_imp hc⟩
  · cases h

theorem spelled_of_mem_inLine {t : Text} {v : Variable} (h : v ∈ inLine t) :
    IsName v.name ∧ IsTypeName v.type := by
  fun_induction inLine t with
  | case1 => cases h
  | case2 rest found more hf _ ih =>
    rcases List.mem_cons.1 h with rfl | h
    · exact spelled_of_front? hf
    · exact ih h
  | case3 rest hf ih => exact ih h
  | case4 c rest hc ih => exact ih h

theorem firsts_sublist (seen vs : List Variable) : (firsts seen vs).Sublist vs := by
  fun_induction firsts seen vs with
  | case1 => exact .refl _
  | case2 seen v rest hv ih => exact ih.cons v
  | case3 seen v rest hv ih => exact ih.cons_cons v

/-- First occurrences are none of those that were seen before. -/
theorem not_mem_of_mem_firsts {seen vs : List Variable} {v : Variable} (h : v ∈ firsts seen vs) :
    v ∉ seen := by
  fun_induction firsts seen vs with
  | case1 => cases h
  | case2 seen w rest hw ih => exact ih h
  | case3 seen w rest hw ih =>
    rcases List.mem_cons.1 h with rfl | h
    · exact hw
    · exact fun hv => ih h (List.mem_cons_of_mem w hv)

theorem nodup_firsts (seen vs : List Variable) : (firsts seen vs).Nodup := by
  fun_induction firsts seen vs with
  | case1 => exact .nil
  | case2 seen v rest hv ih => exact ih
  | case3 seen v rest hv ih =>
    exact List.nodup_cons.2 ⟨fun h => not_mem_of_mem_firsts h List.mem_cons_self, ih⟩

end Variable

/-! ## Selections -/

namespace Selection

/-- The items whose name is new have none of the names that were seen before. -/
theorem not_mem_of_mem_firstWins {seen : List Text} {its : List Item} {name : Text}
    (h : name ∈ (firstWins seen its).filterMap Item.name?) : name ∉ seen := by
  fun_induction firstWins seen its with
  | case1 => cases h
  | case2 seen item rest hitem ih =>
    rw [List.filterMap_cons_none hitem] at h
    exact ih h
  | case3 seen item rest other hitem hseen ih => exact ih h
  | case4 seen item rest other hitem hseen ih =>
    rw [List.filterMap_cons_some hitem] at h
    rcases List.mem_cons.1 h with rfl | h
    · exact hseen
    · exact fun hn => ih h (List.mem_cons_of_mem other hn)

theorem nodup_names_firstWins (seen : List Text) (its : List Item) :
    ((firstWins seen its).filterMap Item.name?).Nodup := by
  fun_induction firstWins seen its with
  | case1 => exact .nil
  | case2 seen item rest hitem ih =>
    rw [List.filterMap_cons_none hitem]
    exact ih
  | case3 seen item rest name hitem hseen ih => exact ih
  | case4 seen item rest name hitem hseen ih =>
    rw [List.filterMap_cons_some hitem]
    exact List.nodup_cons.2 ⟨fun h => not_mem_of_mem_firstWins h List.mem_cons_self, ih⟩

/-- The field of an item has the name that the item occupies. -/
theorem map_name_field? (owner : Text) (item : Item) :
    (item.field? owner).map Field.name = item.name? := by
  cases item with
  | leaf name type => rfl
  | nested name body spread => exact congrArg some (name_nestedField owner name _)
  | unrecognised line => rfl

/-- **A selection set names its fields apart.** -/
theorem distinct_fields (owner : Text) (lines : List Text) :
    Field.Distinct (fields owner lines) := by
  unfold Field.Distinct
  rw [fields_eq, List.map_filterMap]
  simp only [map_name_field?]
  exact nodup_names_firstWins [] _

theorem distinct_selections_of_field? {owner : Text} {item : Item} {f : Field}
    (h : item.field? owner = some f) : Field.Distinct f.selections := by
  cases item with
  | leaf name type =>
    cases h
    exact .nil
  | nested name body spread =>
    cases h
    rw [selections_nestedField]
    split
    · exact distinct_fields _ body
    · exact .nil
  | unrecognised line => cases h

/-- The field of an item has a type made up from its owner and its name when it has selections. -/
theorem type_of_field? {owner : Text} {item : Item} {f : Field} (h : item.field? owner = some f)
    (hs : f.selections ≠ []) : f.type = Field.shapeName owner f.name := by
  cases item with
  | leaf name type =>
    cases h
    exact absurd rfl hs
  | nested name body spread =>
    cases h
    rw [selections_nestedField] at hs
    unfold nestedField
    rw [if_neg fun hnil => hs (List.isEmpty_iff.1 hnil)]
  | unrecognised line => cases h

/-- A field of a selection set is that of an item, or it stands at a path in the fields of a block
whose owner is named by the item around it. -/
theorem at_fields_cases {f : Field} {owner : Text} {lines path : List Text}
    (h : f.At path (fields owner lines)) :
    (∃ item ∈ itemsOf lines, item.field? owner = some f ∧ path = [f.name])
    ∨ ∃ name body inner, Item.nested name body true ∈ itemsOf lines ∧ path = name :: inner
      ∧ f.At inner (fields (Field.shapeName owner name) body) := by
  cases h with
  | among hf =>
    rw [fields_eq] at hf
    obtain ⟨item, hmem, hfield⟩ := List.mem_filterMap.1 hf
    exact .inl ⟨item, hmem, hfield, rfl⟩
  | @under _ g inner hg hat =>
    rw [fields_eq] at hg
    obtain ⟨item, hmem, hfield⟩ := List.mem_filterMap.1 hg
    cases item with
    | leaf name type =>
      cases hfield
      exact absurd hat Field.not_at_nil
    | nested name body spread =>
      cases hfield
      rw [selections_nestedField] at hat
      cases spread with
      | true => exact .inr ⟨name, body, inner, hmem, by rw [name_nestedField], hat⟩
      | false => exact absurd hat Field.not_at_nil
    | unrecognised line => cases hfield

/-- What holds of the fields of items holds of the fields at any depth, if it is carried out of a
block to the item around it. -/
theorem at_fields_induction {motive : Text → List Text → Field → Prop}
    (item : ∀ {owner : Text} {i : Item} {f : Field}, i.field? owner = some f →
      motive owner [f.name] f)
    (nested : ∀ {owner name : Text} {path : List Text} {f : Field},
      motive (Field.shapeName owner name) path f → motive owner (name :: path) f)
    {f : Field} {owner : Text} {lines path : List Text} (h : f.At path (fields owner lines)) :
    motive owner path f := by
  -- the block of an item holds fewer braces than the lines it was found in
  induction hn : Block.braces lines using Nat.strongRecOn generalizing owner lines path with
  | ind n ih =>
    subst hn
    rcases at_fields_cases h with ⟨i, -, hfield, rfl⟩ | ⟨name, body, inner, hmem, rfl, hat⟩
    · exact item hfield
    · exact nested (ih _ (braces_body_lt hmem) hat rfl)

theorem distinct_selections {f : Field} {owner : Text} {lines path : List Text}
    (h : f.At path (fields owner lines)) : Field.Distinct f.selections :=
  at_fields_induction (motive := fun _ _ f => Field.Distinct f.selections)
    distinct_selections_of_field? id h

/-- **The type of a nested selection spells out the way to it.** -/
theorem type_of_at_fields {f : Field} {owner : Text} {lines path : List Text}
    (h : f.At path (fields owner lines)) (hs : f.selections ≠ []) :
    f.type = owner ++ path.flatMap capitalize := by
  refine at_fields_induction
    (motive := fun owner path f => f.selections ≠ [] → f.type = owner ++ path.flatMap capitalize)
    ?_ ?_ h hs
  · intro owner i f hfield hs
    rw [type_of_field? hfield hs, List.flatMap_singleton]
    rfl
  · intro owner name path f ih hs
    rw [ih hs, List.flatMap_cons, ← List.append_assoc]
    rfl

end Selection

/-! ## Operations -/

namespace Document

/-- The fields of an operation are those of some lines, of none when it has no selection set. -/
theorem exists_fieldsOf_eq (name : Text) (lines : List Text) :
    ∃ body, fieldsOf name lines = Selection.fields name body := by
  unfold fieldsOf
  split
  · rename_i block _
    exact ⟨block.body, rfl⟩
  · exact ⟨[], (Selection.fields_of_no_lines rfl name).symm⟩

theorem wellFormed_of_operation? {content : Text} {o : Operation}
    (h : operation? content = some o) : o.WellFormed := by
  have hspelled : ∀ f : Field, f.Within o.fields → f.Spelled := fun f hf => spelled_of_within h hf
  obtain ⟨header, hheader, rfl⟩ := Option.map_eq_some_iff.1 h
  obtain ⟨body, hbody⟩ := exists_fieldsOf_eq header.name (Scope.linesOf content header.name)
  refine ⟨isName_of_header? hheader, ?_, ?_, Variable.nodup_firsts [] _, ?_, ?_, ?_⟩
  · intro v hv
    have hmem := (Variable.firsts_sublist [] _).subset hv
    obtain ⟨line, -, hline⟩ := List.mem_flatMap.1 hmem
    exact Variable.spelled_of_mem_inLine hline
  · intro path f hf
    exact hspelled f (Field.within_iff_exists_at.2 ⟨path, hf⟩)
  · change Field.Distinct (fieldsOf _ _)
    rw [hbody]
    exact Selection.distinct_fields header.name body
  · intro path f hf
    change f.At path (fieldsOf _ _) at hf
    rw [hbody] at hf
    exact Selection.distinct_selections hf
  · intro path f hf hs
    change f.At path (fieldsOf _ _) at hf
    rw [hbody] at hf
    exact Selection.type_of_at_fields hf hs

end Document

namespace Parser

/--
**Every operation that is found is well-formed**, whatever the document says and whatever nested
types the parser holds from earlier calls.
-/
theorem wellFormed_of_step {types types' : NestedTypes} {content : Text} {o : Operation}
    (h : step types (.operation content) = (types', .operation (some o))) : o.WellFormed := by
  rw [step_operation] at h
  have hfound : Document.operation? content = some o := Answer.operation.inj (Prod.mk.inj h).2
  exact Document.wellFormed_of_operation? hfound

/-- A variable that is listed twice, a selection two levels deep, and a name that comes up again in
its scope. -/
def shelfSource : Text :=
  joinLines
    ["query Shelf($id: ID!, $id: ID!) \x7b".toList, "  user(id: $id) \x7b".toList,
      "    posts \x7b".toList, "      title".toList, "    \x7d".toList, "    posts: name".toList,
      "  \x7d".toList, "\x7d".toList]

/-- The operation of `shelfSource`: each type spells out the way to it. -/
def shelfOperation : Operation where
  kind := .query
  name := "Shelf".toList
  parameters := [⟨"id".toList, "ID!".toList⟩]
  fields :=
    [⟨"user".toList, "ShelfUser".toList,
      [⟨"posts".toList, "ShelfUserPosts".toList, [⟨"title".toList, Field.scalarType, []⟩]⟩]⟩]

theorem wellFormed_of_step_shelf :
    step .empty (.operation shelfSource)
        = (Document.register .empty (some shelfOperation), .operation (some shelfOperation))
      ∧ shelfOperation.WellFormed := by
  have hfound : Document.operation? shelfSource = some shelfOperation := by decide +kernel
  have hstep : step .empty (.operation shelfSource)
      = (Document.register .empty (some shelfOperation), .operation (some shelfOperation)) := by
    rw [step_operation, hfound]
  exact ⟨hstep, wellFormed_of_step hstep⟩

end Parser

end GqlScan
