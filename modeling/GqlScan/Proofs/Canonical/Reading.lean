import GqlScan.Proofs.Blocks
import GqlScan.Proofs.Canonical.HeadLine
import GqlScan.Proofs.Registration
import GqlScan.Proofs.SelectionLines

/-!
# A canonical document is read back as it was written

The lines of a forest leave the block around them as deep as they found it, so a block ends at the
line that was written to close it. Within the block every line stands for itself, and has the shape
that it was written in. The fields then follow by induction on the forest, with the path to it.

Main statement: `scan_print`.
-/

namespace GqlScan

open Text

namespace Canonical.Forest

/-! ## The block of a forest -/

theorem run_leafLine (name : Name) (type? : Option TypeName) (k : Nat) :
    Block.run k (leafLine name type?) = .stays k := by
  have hwritten := written_leafLine name type?
  exact Block.run_of_no_braces (hwritten.not_mem (by decide) (by decide))
    (hwritten.not_mem (by decide) (by decide)) k

theorem run_openLine (name : Name) (k : Nat) :
    Block.run k (openLine name) = .stays (k + 1) := by
  have hname : Block.run k name.1 = .stays k :=
    Block.run_of_no_braces ((name.written []).not_mem (by decide) (by decide))
      ((name.written []).not_mem (by decide) (by decide)) k
  rw [openLine, Block.run_append_of_stays hname]
  rfl

/-- The lines of a forest leave a block as deep as it was before them. -/
theorem takeFrom_lines (F : Forest) {k j : Nat} {first : Text}
    (h : Block.run k first = .stays j) (next : Text) (later : List Text) :
    Block.takeFrom k first (F.lines ++ next :: later)
      = (Block.takeFrom j next later).behind (first :: F.lines) := by
  -- the line in front is any line, so that it can be the one that opens or closes a selection
  induction F generalizing k j first next later with
  | nil => exact Block.takeFrom_cons h next later
  | leaf name type? rest ih =>
    rw [lines, List.cons_append, Block.takeFrom_cons h, ih (run_leafLine name type? j),
      Block.behind_behind]
    rfl
  | node name children rest ihc ihr =>
    have hclose : Block.run (j + 1) closeLine = .stays j := rfl
    rw [lines, List.cons_append, List.append_assoc, List.cons_append, Block.takeFrom_cons h,
      ihc (run_openLine name j), ihr hclose, Block.behind_behind, Block.behind_behind]
    rfl

/-- The lines of the block of a forest. -/
def body (F : Forest) : List Text := [] :: (F.lines ++ [[]])

theorem take_lines (F : Forest) (later : List Text) :
    Block.take [] (F.lines ++ closeLine :: later) = ⟨F.body, F.lines.length + 1, true⟩ := by
  have hempty : Block.run 0 [] = .stays 0 := rfl
  have hclose : Block.run 0 closeLine = .closes [] := rfl
  unfold Block.take
  rw [takeFrom_lines F hempty, Block.takeFrom_closes hclose]
  unfold Block.behind body
  rw [Nat.zero_add, List.length_cons, List.cons_append]

/-- The lines of a forest are the logical lines of its block. -/
theorem ofLines_body (F : Forest) : LogicalLine.ofLines F.body = F.lines := by
  have hlegible : ∀ l ∈ F.lines, LogicalLine.clean l = l ∧ '(' ∉ l ∧ ')' ∉ l := by
    intro l hl
    have hline := F.legible_lines hl
    refine ⟨?_, hline.written.not_mem (by decide) (by decide),
      hline.written.not_mem (by decide) (by decide)⟩
    unfold LogicalLine.clean
    rw [Comment.cut_of_no_sign (hline.written.not_mem (by decide) (by decide)), hline.trim_eq]
  have hempty : LogicalLine.clean [] = [] := rfl
  have hkeep : F.lines.filter (fun l => l ≠ []) = F.lines := by
    rw [List.filter_eq_self]
    intro l hl
    exact decide_eq_true (F.legible_lines hl).ne_nil
  rw [LogicalLine.ofLines_of_clean]
  · unfold body
    rw [List.filter_cons_of_neg (by decide), List.filter_append, hkeep,
      List.filter_cons_of_neg (by decide), List.filter_nil, List.append_nil]
  · intro l hl
    rcases List.mem_cons.1 hl with rfl | hl
    · exact ⟨hempty, List.not_mem_nil, List.not_mem_nil⟩
    · rcases List.mem_append.1 hl with hl | hl
      · exact hlegible l hl
      · rw [List.mem_singleton.1 hl]
        exact ⟨hempty, List.not_mem_nil, List.not_mem_nil⟩

/-! ## The shapes of the lines -/

theorem name?_name_append (name : Name) {v : Text} (hv : Stops isNameChar v) :
    name? (name.1 ++ v) = some (name.1, v) := by
  rw [name?_append hv, name?_of_letters name.2.1 fun c hc => name.letters hc]
  rfl

theorem opening?_openLine (name : Name) :
    LineShape.opening? (openLine name) = some ⟨none, name.1, []⟩ := by
  have hbrace : Stops isNameChar [' ', '{'] := .cons (by decide) _
  have hskip : LineShape.skipTail [' ', '{'] = ['{'] :=
    LineShape.skipTail_of_head (by decide) (by decide)
  unfold LineShape.opening? openLine
  rw [name?_name_append name hbrace]
  simp only [Option.bind_eq_bind, Option.bind_some]
  show LineShape.openingTail? none name.1 [' ', '{'] = _
  unfold LineShape.openingTail?
  rw [hskip]
  rfl

theorem opening?_leafLine (name : Name) (type? : Option TypeName) :
    LineShape.opening? (leafLine name type?) = none := by
  have hwritten := written_leafLine name type?
  exact LineShape.opening?_eq_none (hwritten.not_mem (by decide) (by decide))

theorem simple?_leafLine (name : Name) (type? : Option TypeName) :
    LineShape.simple? (leafLine name type?) = some (name.1, type?.map Subtype.val) := by
  cases type? with
  | none =>
    have hskip : LineShape.skipTail [] = [] :=
      LineShape.skipTail_of_head (by decide) (by decide)
    exact LineShape.simple?_of_end
      (name?_of_letters name.2.1 fun c hc => name.letters hc) hskip
  | some type =>
    have hblank : isBlank ':' = false := by decide
    have hletters : ∀ c ∈ type.1, isTypeChar c = true := fun c hc => type.letters hc
    have hcolon : Stops isNameChar (':' :: ' ' :: type.1) := .cons (by decide) _
    have hskip : LineShape.skipTail (':' :: ' ' :: type.1) = ':' :: ' ' :: type.1 := by
      have htrim : trimStart (':' :: ' ' :: type.1) = ':' :: ' ' :: type.1 :=
        trimStart_of_stops (.cons hblank _)
      rw [LineShape.skipTail_of_head, htrim]
      · rw [htrim, List.head?_cons]
        decide
      · rw [htrim, List.head?_cons]
        decide
    have hstart : trimStart (' ' :: type.1) = type.1 := by
      rw [trimStart_cons_of_blank (by decide)]
      exact trimStart_of_stops fun c hc =>
        isBlank_eq_false_of_isTypeChar (hletters c (List.mem_of_head? hc))
    have htake : (trimStart (' ' :: type.1)).takeWhile isTypeChar = type.1 := by
      rw [hstart, List.takeWhile_eq_self_iff]
      exact hletters
    have hdrop : (trimStart (' ' :: type.1)).dropWhile isTypeChar = [] := by
      rw [hstart, List.dropWhile_eq_nil_iff]
      exact hletters
    have hsimple := LineShape.simple?_of_type (name?_name_append name hcolon) hskip
      (by rw [htake]; exact type.2.1) (by rw [hdrop]; rfl)
    rw [leafLine, List.append_assoc]
    rw [htake] at hsimple
    exact hsimple

theorem leaf?_leafLine (name : Name) (type? : Option TypeName) :
    Selection.leaf? (leafLine name type?)
      = some (name.1, (type?.map Subtype.val).getD Field.scalarType) := by
  unfold Selection.leaf?
  rw [simple?_leafLine]

/-! ## The items -/

/-- The items of a forest. -/
def items : Forest → List Selection.Item
  | nil => []
  | leaf name type? rest =>
    .leaf name.1 ((type?.map Subtype.val).getD Field.scalarType) :: rest.items
  | node name children rest => .nested name.1 children.body true :: rest.items

theorem items_lines (F : Forest) : Selection.items F.lines = F.items := by
  induction F with
  | nil => rw [lines, Selection.items, items]
  | leaf name type? rest ih =>
    rw [lines, Selection.items, opening?_leafLine]
    dsimp only
    rw [leaf?_leafLine]
    dsimp only
    rw [ih]
    rfl
  | node name children rest _ ihr =>
    have hdrop : (children.lines ++ closeLine :: rest.lines).drop (children.lines.length + 1)
        = rest.lines := by
      rw [← List.drop_drop, List.drop_left]
      rfl
    rw [lines, Selection.items, opening?_openLine]
    dsimp only
    rw [take_lines]
    dsimp only
    rw [hdrop, ihr]
    rfl

theorem filterMap_name?_items (F : Forest) :
    F.items.filterMap Selection.Item.name? = F.names.map Subtype.val := by
  induction F with
  | nil => rfl
  | leaf name type? rest ih =>
    rw [items, names, List.map_cons, ← ih]
    rfl
  | node name children rest _ ihr =>
    rw [items, names, List.map_cons, ← ihr]
    rfl

theorem Proper.nodup_names {F : Forest} (h : F.Proper) : F.names.Nodup := by
  induction F with
  | nil => exact List.nodup_nil
  | leaf name type? rest ih => exact List.nodup_cons.2 ⟨h.1, ih h.2⟩
  | node name children rest _ ihr => exact List.nodup_cons.2 ⟨h.1, ihr h.2.2.2⟩

theorem itemsOf_body {F : Forest} (h : F.Proper) : Selection.itemsOf F.body = F.items := by
  unfold Selection.itemsOf
  rw [ofLines_body, items_lines]
  refine Selection.firstWins_of_nodup ?_ fun n _ hn => by cases hn
  rw [filterMap_name?_items]
  exact h.nodup_names.map Subtype.val_injective

/-! ## The fields -/

theorem capitalize_name (name : Name) : capitalize name.1 = cap name := by
  unfold cap
  have hletters : ∀ c ∈ name.1, isNameChar c = true := fun c hc => name.letters hc
  revert hletters
  cases name.1 with
  | nil => exact fun _ => rfl
  | cons c rest =>
    intro hletters
    have hascii := toNat_lt_of_isNameChar (hletters c List.mem_cons_self)
    rw [capitalize, upper, if_pos hascii]
    rfl

theorem shapeName_shapeAt (operation : Text) (path : List Name) (name : Name) :
    Field.shapeName (shapeAt operation path) name.1 = shapeAt operation (path ++ [name]) := by
  unfold Field.shapeName shapeAt
  rw [List.flatMap_append, List.flatMap_singleton, capitalize_name, List.append_assoc]

theorem fields_ne_nil {F : Forest} (h : F.names ≠ []) (operation : Text) (path : List Name) :
    F.fields operation path ≠ [] := by
  cases F with
  | nil => exact absurd rfl h
  | leaf name type? rest => exact List.cons_ne_nil _ _
  | node name children rest => exact List.cons_ne_nil _ _

theorem filterMap_field?_items {F : Forest} (h : F.Proper) (operation : Text)
    (path : List Name) :
    F.items.filterMap (Selection.Item.field? (shapeAt operation path))
      = F.fields operation path := by
  -- the children stand one name further down, so the path goes along
  induction F generalizing path with
  | nil => rfl
  | leaf name type? rest ih =>
    rw [items, fields, ← ih h.2]
    rfl
  | node name children rest ihc ihr =>
    obtain ⟨-, hsome, hchildren, hrest⟩ := h
    have hinner : Selection.fields (shapeAt operation (path ++ [name])) children.body
        = children.fields operation (path ++ [name]) := by
      rw [Selection.fields_eq, itemsOf_body hchildren, ihc hchildren]
    have hnode : Selection.Item.field? (shapeAt operation path)
          (.nested name.1 children.body true)
        = some ⟨name.1, shapeAt operation (path ++ [name]),
            children.fields operation (path ++ [name])⟩ := by
      have hne : ¬ (children.fields operation (path ++ [name])).isEmpty = true := by
        rw [List.isEmpty_iff]
        exact fields_ne_nil hsome operation (path ++ [name])
      unfold Selection.Item.field? Selection.nestedField
      dsimp only
      rw [if_pos rfl, shapeName_shapeAt, hinner, if_neg hne]
    rw [items, List.filterMap_cons_some hnode, ihr hrest, fields]

theorem fields_body {F : Forest} (h : F.Proper) (operation : Text) :
    Selection.fields operation F.body = F.fields operation [] := by
  have hroot : shapeAt operation [] = operation := List.append_nil operation
  rw [Selection.fields_eq, itemsOf_body h, ← filterMap_field?_items h, hroot]

end Canonical.Forest

namespace Canonical.Source

/-- **A canonical document is read back as it was written.** -/
theorem scan_print (s : Source) (indent : Nat → Nat) (lastFeed : Bool) :
    (Document.scan .empty (s.print indent lastFeed)).1 = some s.operation := by
  rw [Document.scan_eq, Document.operation?_eq_ofLive?, liveText_print, ofLive?_lines]
  rw [Forest.take_lines s.forest [], Forest.fields_body s.proper]
  rfl

example :
    let s : Source := ⟨.query, ⟨['Q'], by decide⟩,
      [⟨⟨['n'], by decide⟩, ⟨['I', 'D', '!'], by decide⟩⟩], by decide,
      .node ⟨['a'], by decide⟩ (.leaf ⟨['b'], by decide⟩ none .nil) .nil, by decide⟩
    let text := "query Q($n: ID!) \x7b\n a \x7b\n  b\n   \x7d\n    \x7d\n".toList
    s.print (fun i => i) true = text ∧ Document.operation? text = some s.operation := by
  decide +kernel

end Canonical.Source

end GqlScan
