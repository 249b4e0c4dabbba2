import GqlScan.Proofs.Concatenation
import GqlScan.Proofs.FieldLines

/-!
# Lines between an opening line and a closing brace

Braces are counted character by character, so a block sees of the lines in it nothing but their
braces, and these are the same whether the lines are taken as they are written or as logical lines:
joining and trimming move blanks only. Lines whose braces are balanced therefore leave the block
around them as deep as they found it, and the brace on the line behind them closes it.

Main statements: `balanced_ofLines`, `take_enclosed`, and `scan_past_block` for a block whose line a
scan does not recognise.
-/

namespace GqlScan

open Text

/-! ## Balanced text -/

namespace Block

theorem Run.cons_eq_stays_iff {c : Char} {r : Run} {k : Nat} :
    r.cons c = .stays k ↔ r = .stays k :=
  ⟨Run.cons_eq_stays, fun h => by rw [h]; rfl⟩

/-- **A balanced text leaves a block as it was.** -/
theorem stays_of_balanced {t : Text} (h : Balanced t) : run 0 t = .stays 0 := by
  cases hrun : run 0 t with
  | closes before =>
    -- up to the brace that closes, one more is closed than was opened
    obtain ⟨behind, rfl, hbefore⟩ := exists_of_closes hrun
    have hle := h.never_below (before ++ ['}']) ⟨behind, by rw [List.append_assoc]; rfl⟩
    have heq := surplus_eq_zero_iff.1 hbefore
    rw [List.count_append, List.count_append, heq] at hle
    exact absurd hle (by simp)
  | stays j =>
    have hsurplus := surplus_of_stays hrun
    rw [surplus_eq_zero_iff.2 h.closed.symm] at hsurplus
    have hj : j = 0 := by omega
    rw [hj]

/-- The braces of a text and nothing else. -/
def skeleton (t : Text) : Text := t.filter fun c => c == '{' || c == '}'

theorem skeleton_append (t u : Text) : skeleton (t ++ u) = skeleton t ++ skeleton u :=
  List.filter_append ..

theorem skeleton_flatten (ts : List Text) : skeleton ts.flatten = (ts.map skeleton).flatten :=
  List.filter_flatten ..

theorem skeleton_of_blanks {b : Text} (hb : Blanks b) : skeleton b = [] := by
  refine List.filter_eq_nil_iff.2 fun c hc hbrace => ?_
  rw [Bool.or_eq_true, beq_iff_eq, beq_iff_eq] at hbrace
  rcases hbrace with rfl | rfl
  · exact hb.not_mem (by decide) hc
  · exact hb.not_mem (by decide) hc

theorem skeleton_trim (t : Text) : skeleton (trim t) = skeleton t := by
  obtain ⟨a, b, ht, ha, hb⟩ := exists_trim_append t
  conv => rhs; rw [ht]
  rw [skeleton_append, skeleton_append, skeleton_of_blanks ha, skeleton_of_blanks hb,
    List.nil_append, List.append_nil]

/-- A block sees nothing of a text but its braces. -/
theorem run_skeleton {k j : Nat} {t : Text} : run k (skeleton t) = .stays j ↔ run k t = .stays j := by
  fun_induction run k t with
  | case1 k => rfl
  | case2 k rest ih =>
    rw [Run.cons_eq_stays_iff, ← ih]
    exact Run.cons_eq_stays_iff
  | case3 rest hopen => exact iff_of_false Run.noConfusion Run.noConfusion
  | case4 rest k hopen ih =>
    rw [Run.cons_eq_stays_iff, ← ih]
    exact Run.cons_eq_stays_iff
  | case5 k c rest hopen hclose ih =>
    have hskip : skeleton (c :: rest) = skeleton rest :=
      List.filter_cons_of_neg (by simp [hopen, hclose])
    rw [hskip, Run.cons_eq_stays_iff, ih]

end Block

/-! ## Balanced lines -/

namespace LogicalLine

theorem flatten_gather (pending : List Text) (depth : Nat) (lines : List Text) :
    (gather pending depth lines).flatten.flatten = pending.flatten ++ lines.flatten := by
  induction lines generalizing pending depth with
  | nil =>
    rw [gather]
    split
    · rename_i h
      rw [h]
      rfl
    · rw [List.flatten_singleton, List.flatten_nil, List.append_nil]
  | cons t rest ih =>
    rw [gather]
    split
    · rename_i h
      rw [ih, h.1, h.2, List.flatten_cons, List.nil_append]
    · split
      · rw [List.flatten_cons, List.flatten_append, ih, List.flatten_append, List.flatten_singleton,
          List.flatten_nil, List.nil_append, List.append_assoc, List.flatten_cons]
      · rw [ih, List.flatten_append, List.flatten_singleton, List.append_assoc, List.flatten_cons]

theorem skeleton_joined (group : List Text) :
    Block.skeleton (joined group) = Block.skeleton group.flatten :=
  filter_joined rfl group

/-- Logical lines have the braces of the lines they come from, comments left out. -/
theorem skeleton_ofLines (lines : List Text) :
    Block.skeleton (ofLines lines).flatten = Block.skeleton (lines.map Comment.cut).flatten := by
  have hjoined : Block.skeleton ∘ joined = Block.skeleton ∘ List.flatten := funext skeleton_joined
  have hclean : Block.skeleton ∘ clean = Block.skeleton ∘ Comment.cut :=
    funext fun line => Block.skeleton_trim (Comment.cut line)
  calc Block.skeleton (ofLines lines).flatten
      = ((groups lines).map (Block.skeleton ∘ List.flatten)).flatten := by
        rw [Block.skeleton_flatten, ofLines, List.map_map, hjoined]
    _ = Block.skeleton (groups lines).flatten.flatten := by
        rw [List.flatten_flatten, Block.skeleton_flatten, List.map_map]
    _ = ((lines.map (Block.skeleton ∘ clean))).flatten := by
        rw [groups, flatten_gather, List.flatten_nil, List.nil_append, Block.skeleton_flatten,
          List.map_map]
    _ = Block.skeleton (lines.map Comment.cut).flatten := by
        rw [hclean, Block.skeleton_flatten, List.map_map]

/-- **Lines that are balanced without their comments are balanced as logical lines.** -/
theorem balanced_ofLines {lines : List Text} (h : Block.Balanced (lines.map Comment.cut).flatten) :
    Block.Balanced (ofLines lines).flatten := by
  have hstays := Block.stays_of_balanced h
  rw [← Block.run_skeleton, ← skeleton_ofLines, Block.run_skeleton] at hstays
  exact Block.balanced_of_stays hstays

end LogicalLine

/-! ## The block around balanced lines -/

namespace Block

theorem exists_of_append_stays {k j : Nat} {t u : Text} (h : run k (t ++ u) = .stays j) :
    ∃ i, run k t = .stays i ∧ run i u = .stays j := by
  cases ht : run k t with
  | closes before =>
    rw [run_append_of_closes ht] at h
    cases h
  | stays i =>
    rw [run_append_of_stays ht] at h
    cases hu : run i u with
    | closes before =>
      rw [hu] at h
      cases h
    | stays j' =>
      rw [hu] at h
      cases h
      exact ⟨i, rfl, hu⟩

/-- Lines that do not close the block around them all stand in it. -/
theorem takeFrom_of_stays {k j : Nat} {first : Text} {lines : List Text}
    (h : run k (first :: lines).flatten = .stays j) (next : Text) (later : List Text) :
    takeFrom k first (lines ++ next :: later)
      = (takeFrom j next later).behind (first :: lines) := by
  induction lines generalizing k first with
  | nil =>
    rw [List.flatten_singleton] at h
    exact takeFrom_cons h next later
  | cons line lines ih =>
    rw [List.flatten_cons] at h
    obtain ⟨i, hfirst, hlines⟩ := exists_of_append_stays h
    rw [List.cons_append, takeFrom_cons hfirst, ih hlines, behind_behind]
    rfl

/-- **A block of balanced lines ends at the brace behind them.** -/
theorem take_enclosed {first : Text} {lines : List Text} (hfirst : run 0 first = .stays 0)
    (hlines : Balanced lines.flatten) (later : List Text) :
    take first (lines ++ ['}'] :: later) = ⟨first :: (lines ++ [[]]), lines.length + 1, true⟩ := by
  have hall : run 0 (first :: lines).flatten = .stays 0 := by
    rw [List.flatten_cons, run_append_of_stays hfirst, stays_of_balanced hlines]
    rfl
  have hclose : run 0 ['}'] = .closes [] := rfl
  unfold take
  rw [takeFrom_of_stays hall, takeFrom_closes hclose]
  unfold behind
  rw [Nat.zero_add, List.length_cons, List.cons_append]

end Block

/-! ## Blocks that are skipped -/

namespace Selection

/-- A line of none of the known shapes that opens one block and leaves it open. There is nothing to
trim from it or to cut off, and its parentheses hold no other line. -/
structure OpensUnknown (line : Text) : Prop where
  clean : LogicalLine.clean line = line
  noSelection : LineShape.opening? line = none
  noField : LineShape.simple? line = none
  noAlias : LineShape.aliased? line = none
  opens : line.count '{' = 1
  closes : '}' ∉ line
  parentheses : line.count '(' ≤ line.count ')'

namespace OpensUnknown

variable {line : Text} (h : OpensUnknown line)

include h

theorem mem : '{' ∈ line := List.count_pos_iff.1 (by rw [h.opens]; exact Nat.one_pos)

theorem leaf?_eq_none : leaf? line = none := by
  unfold leaf?
  rw [h.noField, h.noAlias]
  rfl

theorem count_lt : line.count '}' < line.count '{' := by
  rw [h.opens, List.count_eq_zero.2 h.closes]
  exact Nat.one_pos

/-- No brace stands behind the one that the line opens. -/
theorem run_after : Block.run 0 (Text.after '{' line) = .stays 0 := by
  have hline := before_append_after h.mem
  refine Block.run_of_no_braces ?_ ?_ 0
  · have hcount := h.opens
    rw [← hline, List.count_append, List.count_cons_self] at hcount
    exact List.count_eq_zero.1 (by omega)
  · intro hmem
    refine h.closes ?_
    rw [← hline]
    exact List.mem_append_right _ (List.mem_cons_of_mem _ hmem)

/-- The line is a logical line by itself. -/
theorem ofLines_cons (later : List Text) :
    LogicalLine.ofLines (line :: later) = line :: LogicalLine.ofLines later :=
  LogicalLine.ofLines_cons_of_clean h.clean (List.ne_nil_of_mem h.mem) h.parentheses later

/-- A scan goes on behind the block that the line opens. -/
theorem fieldsFrom_cons {lines : List Text} (hlines : Block.Balanced lines.flatten) (owner : Text)
    (taken later : List Text) :
    fieldsFrom owner taken (line :: (lines ++ ['}'] :: later)) = fieldsFrom owner taken later := by
  have hblock := Block.take_enclosed h.run_after hlines later
  have hdrop : (lines ++ ['}'] :: later).drop (lines.length + 1) = later :=
    List.drop_length_add_append 1
  rw [fieldsFrom_skip h.noSelection h.leaf?_eq_none h.count_lt, hblock, hdrop]

end OpensUnknown

/-- A closing brace that stands alone is a logical line by itself. -/
theorem ofLines_closing (later : List Text) :
    LogicalLine.ofLines (['}'] :: later) = ['}'] :: LogicalLine.ofLines later :=
  LogicalLine.ofLines_cons_of_clean rfl (List.cons_ne_nil _ _) (by decide) later

/--
**A block whose line is not recognised is skipped whole.**

The lines in it may hold whatever would be read elsewhere, selections at any depth, fields with types
and arguments over several lines, as long as their braces are balanced without their comments, and no
parenthesis is left open behind them. The scan finds the fields of the lines behind the block and
registers what they register, and nothing else.
-/
theorem scan_past_block (types : NestedTypes) (owner : Text) {line : Text} {body : List Text}
    (hline : OpensUnknown line) (hbraces : Block.Balanced (body.map Comment.cut).flatten)
    (hgroups : LogicalLine.Settled body) (later : List Text) :
    scan types owner (line :: (body ++ ['}'] :: later)) = scan types owner later := by
  have hfields : fields owner (line :: (body ++ ['}'] :: later)) = fields owner later := by
    rw [← fieldsFrom_ofLines, ← fieldsFrom_ofLines, hline.ofLines_cons,
      LogicalLine.ofLines_append hgroups, ofLines_closing,
      hline.fieldsFrom_cons (LogicalLine.balanced_ofLines hbraces)]
  rw [scan_eq_fields, scan_eq_fields, hfields]

/-- The line of an inline fragment. -/
def fragmentLine : Text := "... on Movie \x7b".toList

/-- Lines with selections, arguments over two lines and a typed field. -/
def fragmentBody : List Text :=
  ["user(id: 1) \x7b".toList, "name: Text".toList, "\x7d".toList, "items(".toList,
    "first: 2) \x7b".toList, "more \x7b".toList, "id".toList, "\x7d".toList, "\x7d".toList]

theorem scan_past_block_fragment :
    OpensUnknown fragmentLine ∧ Block.Balanced (fragmentBody.map Comment.cut).flatten
      ∧ LogicalLine.Settled fragmentBody
      ∧ scan .empty ['Q'] (fragmentLine :: (fragmentBody ++ ['}'] :: ["title".toList]))
        = scan .empty ['Q'] ["title".toList] := by
  have hshape : LogicalLine.clean fragmentLine = fragmentLine
      ∧ LineShape.opening? fragmentLine = none ∧ LineShape.simple? fragmentLine = none
      ∧ LineShape.aliased? fragmentLine = none ∧ fragmentLine.count '{' = 1
      ∧ '}' ∉ fragmentLine ∧ fragmentLine.count '(' ≤ fragmentLine.count ')' := by
    decide +kernel
  have hbody : Block.run 0 (fragmentBody.map Comment.cut).flatten = .stays 0
      ∧ LogicalLine.Settled fragmentBody := by
    decide +kernel
  obtain ⟨h1, h2, h3, h4, h5, h6, h7⟩ := hshape
  have hline : OpensUnknown fragmentLine := ⟨h1, h2, h3, h4, h5, h6, h7⟩
  have hbraces := Block.balanced_of_stays hbody.1
  exact ⟨hline, hbraces, hbody.2, scan_past_block .empty ['Q'] hline hbraces hbody.2 _⟩

end Selection

end GqlScan
