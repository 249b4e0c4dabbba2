import GqlScan.Parser

/-!
# What a scan registers

A scan threads the nested types through every selection set it meets, past names that are taken,
selections in which nothing is found and blocks that are skipped. Nothing of that shows in its
result: the fields are those of the pure scan, and the nested types are the earlier ones with the
nested selections of these fields registered, inner before outer and left before right.

Main statements: `scanLines_eq`, for one selection set; `scan_eq`, for a document; and
`operation_step_of_history`, for a parser that has answered any calls before.
-/

namespace GqlScan

open Text

/-! ## Registering in pieces -/

namespace NestedTypes

@[simp] theorem registerAll_nil (types : NestedTypes) : types.registerAll [] = types := rfl

@[simp] theorem registerAll_cons (types : NestedTypes) (shape : Text × List Field)
    (shapes : List (Text × List Field)) :
    types.registerAll (shape :: shapes)
      = (types.register shape.1 shape.2).registerAll shapes := rfl

theorem registerAll_append (types : NestedTypes) (xs ys : List (Text × List Field)) :
    types.registerAll (xs ++ ys) = (types.registerAll xs).registerAll ys :=
  List.foldl_append

end NestedTypes

namespace Field

@[simp] theorem nestedAll_nil : nestedAll [] = [] := by rw [nestedAll]

@[simp] theorem nestedAll_cons (f : Field) (fs : List Field) :
    nestedAll (f :: fs) = nested f ++ nestedAll fs := by rw [nestedAll]

theorem nested_eq (f : Field) :
    nested f = nestedAll f.selections ++ if f.selections.isEmpty then [] else [f] := by
  cases f
  rw [nested]

/-- A field without selections has no nested selections. -/
@[simp] theorem nested_leaf (name type : Text) : nested ⟨name, type, []⟩ = [] := by
  rw [nested_eq, nestedAll_nil]
  rfl

@[simp] theorem shapesAll_nil : shapesAll [] = [] := by
  unfold shapesAll
  rw [nestedAll_nil, List.map_nil]

theorem shapesAll_cons (f : Field) (fs : List Field) :
    shapesAll (f :: fs) = (nested f).map shape ++ shapesAll fs := by
  unfold shapesAll
  rw [nestedAll_cons, List.map_append]

end Field

namespace Selection

theorem name_nestedField (owner name : Text) (inner : List Field) :
    (nestedField owner name inner).name = name := by
  unfold nestedField
  split <;> rfl

/-- The nested selections of a nested field are those found in it, and then its own. -/
theorem shapes_nestedField (owner name : Text) (inner : List Field) :
    (nestedField owner name inner).nested.map Field.shape
      = if inner.isEmpty then []
        else Field.shapesAll inner ++ [(Field.shapeName owner name, inner)] := by
  unfold nestedField
  split
  · rw [Field.nested_leaf, List.map_nil]
  · rename_i h
    rw [Field.nested_eq, if_neg h, List.map_append]
    rfl

/-- Registering what was found in a nested selection and then the selection itself is registering
the nested selections of its field. -/
theorem adopt_registerAll (types : NestedTypes) (owner name : Text) (inner : List Field) :
    (types.registerAll (Field.shapesAll inner)).adopt (Field.shapeName owner name) inner
      = types.registerAll ((nestedField owner name inner).nested.map Field.shape) := by
  rw [shapes_nestedField]
  unfold NestedTypes.adopt
  split
  · rename_i h
    rw [List.isEmpty_iff.1 h, Field.shapesAll_nil]
  · rw [NestedTypes.registerAll_append]
    rfl

/-! ## One selection set -/

/-- The pure fields of some logical lines, with names taken by earlier ones. -/
def fieldsFrom (owner : Text) (taken : List Text) (lines : List Text) : List Field :=
  (firstWins taken (items lines)).filterMap (Item.field? owner)

theorem fieldsFrom_ofLines (owner : Text) (lines : List Text) :
    fieldsFrom owner [] (LogicalLine.ofLines lines) = fields owner lines :=
  (fields_eq owner lines).symm

/-! The pure fields line by line, one lemma for each way a line can go. -/

theorem fieldsFrom_nil (owner : Text) (taken : List Text) : fieldsFrom owner taken [] = [] := by
  unfold fieldsFrom
  rw [items, firstWins, List.filterMap_nil]

section

variable {owner line : Text} {taken rest : List Text}

theorem fieldsFrom_opening {o : LineShape.Opening} (ho : LineShape.opening? line = some o) :
    fieldsFrom owner taken (line :: rest)
      = let block := Block.take o.after rest
        let later := rest.drop block.consumed
        if o.name ∈ taken then fieldsFrom owner taken later
        else
          nestedField owner o.name
              (if 0 < block.consumed then fields (Field.shapeName owner o.name) block.body else [])
            :: fieldsFrom owner (o.name :: taken) later := by
  unfold fieldsFrom
  rw [items]
  simp only [ho]
  rw [firstWins]
  simp only [Item.name?]
  split
  · rfl
  · simp only [List.filterMap_cons, Item.field?, decide_eq_true_eq]

theorem fieldsFrom_leaf {name type : Text} (ho : LineShape.opening? line = none)
    (hl : leaf? line = some (name, type)) :
    fieldsFrom owner taken (line :: rest)
      = if name ∈ taken then fieldsFrom owner taken rest
        else ⟨name, type, []⟩ :: fieldsFrom owner (name :: taken) rest := by
  unfold fieldsFrom
  rw [items]
  simp only [ho, hl]
  rw [firstWins]
  simp only [Item.name?]
  split
  · rfl
  · simp only [List.filterMap_cons, Item.field?]

theorem fieldsFrom_skip (ho : LineShape.opening? line = none) (hl : leaf? line = none)
    (hb : line.count '}' < line.count '{') :
    fieldsFrom owner taken (line :: rest)
      = fieldsFrom owner taken (rest.drop (Block.take (Text.after '{' line) rest).consumed) := by
  unfold fieldsFrom
  rw [items]
  simp only [ho, hl, if_pos hb]

theorem fieldsFrom_unrecognised (ho : LineShape.opening? line = none) (hl : leaf? line = none)
    (hb : ¬ line.count '}' < line.count '{') :
    fieldsFrom owner taken (line :: rest) = fieldsFrom owner taken rest := by
  unfold fieldsFrom
  rw [items]
  simp only [ho, hl, if_neg hb]
  rw [firstWins]
  simp only [Item.name?, List.filterMap_cons, Item.field?]

end

/-- **The threaded scan finds the pure fields and registers their nested selections.** -/
theorem scanLines_eq (owner : Text) (taken : List Text) (types : NestedTypes)
    (lines : List Text) :
    scanLines owner taken types lines
      = (fieldsFrom owner taken lines,
        types.registerAll (Field.shapesAll (fieldsFrom owner taken lines))) := by
  -- the recursion of the scan: the inner set starts with no name taken and the types of this one,
  -- the lines behind it go on with whatever the inner set has registered
  fun_induction scanLines owner taken types lines with
  | case1 owner taken types =>
    rw [fieldsFrom_nil]
    simp only [Field.shapesAll_nil, NestedTypes.registerAll_nil]
  | case2 owner taken types line rest o ho block hm ih =>
    rw [fieldsFrom_opening ho, if_pos hm]
    exact ih
  | case3 owner taken types line rest o ho block hm shape inner later ihInner _ ihLater =>
    -- what is found inside does not depend on the types that are known before
    have hinner : ∃ found, found = (if 0 < block.consumed then fields shape block.body else [])
        ∧ inner = (found, types.registerAll (Field.shapesAll found)) := by
      refine ⟨_, rfl, ?_⟩
      by_cases hc : 0 < block.consumed
      · have : inner = scanLines shape [] types (LogicalLine.ofLines block.body) := dif_pos hc
        rw [this, ihInner, if_pos hc, fieldsFrom_ofLines]
      · have : inner = ([], types) := dif_neg hc
        rw [this, if_neg hc]
        simp only [Field.shapesAll_nil, NestedTypes.registerAll_nil]
    obtain ⟨found, hfound, hinner⟩ := hinner
    have hlater : later = _ := ihLater
    rw [fieldsFrom_opening ho, if_neg hm, hlater, hinner, adopt_registerAll, ← hfound]
    simp only [Field.shapesAll_cons, NestedTypes.registerAll_append]
    rfl
  | case4 owner taken types line rest ho name type hl hm ih =>
    rw [fieldsFrom_leaf ho hl, if_pos hm]
    exact ih
  | case5 owner taken types line rest ho name type hl hm later ih =>
    have hlater : later = _ := ih
    rw [fieldsFrom_leaf ho hl, if_neg hm, hlater]
    simp only [Field.shapesAll_cons, Field.nested_leaf, List.map_nil, List.nil_append]
  | case6 owner taken types line rest ho hl hb ih =>
    rw [fieldsFrom_skip ho hl hb]
    exact ih
  | case7 owner taken types line rest ho hl hb ih =>
    rw [fieldsFrom_unrecognised ho hl hb]
    exact ih

/-- The scan of a selection set finds its pure fields and registers their nested selections. -/
theorem scan_eq_fields (types : NestedTypes) (owner : Text) (lines : List Text) :
    scan types owner lines
      = (fields owner lines, types.registerAll (Field.shapesAll (fields owner lines))) := by
  unfold scan
  rw [scanLines_eq, fieldsFrom_ofLines]

end Selection

/-! ## Documents -/

namespace Document

/-- The nested types after the operation of a document has been registered, if there is one. -/
def register (types : NestedTypes) : Option Operation → NestedTypes
  | none => types
  | some operation => types.registerAll (Field.shapesAll operation.fields)

/-- The nested selections of the operation of a document. -/
def shapesOf : Option Operation → List (Text × List Field)
  | none => []
  | some operation => Field.shapesAll operation.fields

theorem register_eq (types : NestedTypes) (found : Option Operation) :
    register types found = types.registerAll (shapesOf found) := by
  cases found with
  | none => rfl
  | some operation => rfl

theorem scanFields_eq (types : NestedTypes) (name : Text) (lines : List Text) :
    scanFields types name lines
      = (fieldsOf name lines, types.registerAll (Field.shapesAll (fieldsOf name lines))) := by
  unfold scanFields fieldsOf
  split
  · exact Selection.scan_eq_fields _ _ _
  · rw [Field.shapesAll_nil, NestedTypes.registerAll_nil]

/-- **A scan returns the operation of the document and registers it.** -/
theorem scan_eq (types : NestedTypes) (content : Text) :
    scan types content = (operation? content, register types (operation? content)) := by
  unfold scan operation?
  cases header? content with
  | none => rfl
  | some header =>
    dsimp only
    rw [scanFields_eq]
    rfl

theorem scan_empty (content : Text) :
    scan .empty content = (operation? content, nestedTypes content) := by
  unfold nestedTypes
  rw [scan_eq]

end Document

/-! ## Parsers with a history -/

namespace Parser

/-- The nested selections that a call registers. -/
def Call.shapes : Call → List (Text × List Field)
  | .operation content => Document.shapesOf (Document.operation? content)
  | .schema _ | .fields _ | .holds _ | .names | .size => []

theorem step_operation (types : NestedTypes) (content : Text) :
    step types (.operation content)
      = (Document.register types (Document.operation? content),
        .operation (Document.operation? content)) := by
  change ((Document.scan types content).2, Answer.operation (Document.scan types content).1) = _
  rw [Document.scan_eq]

theorem step_types (types : NestedTypes) (call : Call) :
    (step types call).1 = types.registerAll call.shapes := by
  cases call with
  | operation content =>
    rw [step_operation, Document.register_eq]
    rfl
  | schema content => rfl
  | fields name => rfl
  | holds name => rfl
  | names => rfl
  | size => rfl

/-- **What a parser holds is what the operations it has answered have registered**, in the order of
the calls. -/
theorem after_eq (types : NestedTypes) (calls : List Call) :
    after types calls = types.registerAll (calls.flatMap Call.shapes) := by
  induction calls generalizing types with
  | nil => rfl
  | cons call calls ih =>
    change after (step types call).1 calls = _
    rw [ih, step_types, List.flatMap_cons, NestedTypes.registerAll_append]

/--
**A call for an operation does not depend on the calls before it.**

Whatever a parser was asked before, it finds the operation that a fresh one finds; the nested types
it holds are then the earlier ones with this operation registered, and a call for a schema leaves
them as they are.
-/
theorem operation_step_of_history (types : NestedTypes) (history : List Call) (content : Text) :
    ∃ found : Option Operation,
      (step .empty (.operation content)).2 = .operation found
      ∧ step (after types history) (.operation content)
          = (Document.register (after types history) found, .operation found)
      ∧ (step (after types history) (.schema content)).1 = after types history := by
  refine ⟨Document.operation? content, ?_, ?_, rfl⟩
  · rw [step_operation]
  · exact step_operation (after types history) content

end Parser

end GqlScan
