import GqlScan.Proofs.FieldLines
import GqlScan.Proofs.Literals.Scenes

/-!
# What a content is taken for

For each thing that a content can hold there is a scene in which a scan finds it: quotes that make
a delimiter, a header, braces, parentheses that are not balanced or that end the arguments, and,
where a block starts inside a literal, a comment.

Main statement: `exists_of_not_harmless`.
-/

namespace GqlScan

open Text Comment

namespace Literal

open LogicalLine

namespace Scene

variable {w : Text}

/-! ## What the scenes tell -/

/-- The fields of a scene are others than with a content that says nothing. -/
def Tells (x : Scene) (w : Text) : Prop :=
  ¬ Document.SameFields (x.slot.fill neutral) (x.slot.fill w)

theorem tells_of_fields {x : Scene} {fs gs : List Field}
    (hneutral : x.fields? neutral = some fs) (hw : x.fields? w = some gs) (h : gs ≠ fs) :
    x.Tells w := by
  intro heq
  have hsame : x.fields? neutral = x.fields? w := heq
  rw [hneutral, hw] at hsame
  exact h (Option.some.inj hsame).symm

/-! ## Quotes and headers -/

/-- The fields of a scene in which the first line is a field with the literal in its arguments. -/
theorem fields?_arguments {x : Scene} (hx : x.Sound) (t : Text) (ls : List Text)
    (hbody : (Block.take (x.line neutral) x.below).body = ('a' :: '(' :: t) :: ls)
    (hclean : clean ('a' :: '(' :: t) = 'a' :: '(' :: t)
    (hcount : ('a' :: '(' :: t).count '(' ≤ ('a' :: '(' :: t).count ')')
    (hbrace : '{' ∉ 'a' :: '(' :: t) (hend : ')' ∈ t ∧ after ')' t = []) :
    x.fields? neutral
      = some (⟨['a'], Field.scalarType, []⟩
          :: Selection.fieldsFrom [x.name] [['a']] (ofLines ls)) := by
  have hempty : LineShape.skipDirectives [] = [] := LineShape.skipDirectives_of_head (by decide)
  have hleaf : Selection.leaf? ('a' :: '(' :: t) = some (['a'], Field.scalarType) :=
    Selection.leaf?_arguments (c := 'a') (by decide) hend.1 (hend.2 ▸ hempty)
  rw [fields?, hx.fields_fill (by decide) (by decide) (by decide), hbody,
    ← Selection.fieldsFrom_ofLines, ofLines_cons_of_clean hclean (List.cons_ne_nil _ _) hcount,
    Selection.fieldsFrom_leaf (LineShape.opening?_eq_none hbrace) hleaf, if_neg List.not_mem_nil]

theorem fields?_single (name : Char) (h : name = 'Q' ∨ name = 'R') :
    (single name).fields? neutral = some [⟨['a'], Field.scalarType, []⟩] := by
  have hempty : ofLines [[]] = [] := by decide
  rw [fields?_arguments (sound_single name h) "x: \"v\")".toList [[]] rfl (by decide) (by decide)
    (by decide) (by decide), hempty, Selection.fieldsFrom_nil]

/-- Quotes with nothing between them make a delimiter with those beside them, and the lines below
are taken for a comment. -/
theorem tells_neighbours : neighbours.Tells [] := by
  have hempty : ofLines [[]] = [] := by decide
  have hneutral : neighbours.fields? neutral = some [⟨['a'], Field.scalarType, []⟩] := by
    rw [fields?_arguments sound_neighbours "x: [\"k\"\"v\"])".toList [[]] rfl (by decide)
      (by decide) (by decide) (by decide), hempty, Selection.fieldsFrom_nil]
  have hnothing : neighbours.fields? [] = some [] := by
    have hlive : liveText (neighbours.slot.fill []) = [neighbours.head] := by decide
    rw [fields?, Document.operation?_eq_ofLive?, hlive,
      Document.ofLive?_of_brace sound_neighbours.header (fun l hl => absurd hl List.not_mem_nil)
        (by decide)]
    exact congrArg some (Selection.fields_of_no_lines rfl _)
  exact tells_of_fields hneutral hnothing (List.cons_ne_nil _ _).symm

/-- A header of another operation ends the selection set. -/
theorem tells_single_of_header (hw : IsContent w) (hne : w ≠ []) {h : Header}
    (hheader : Header.find? w = some h) {name : Char} (hletter : name = 'Q' ∨ name = 'R')
    (hname : h.name ≠ [name]) : (single name).Tells w :=
  tells_of_fields (fields?_single name hletter)
    ((sound_single name hletter).fields_fill_of_header hw hne hheader hname)
    (List.cons_ne_nil _ _).symm

/-! ## Braces, and parentheses that are left open -/

/-- A brace in an argument closes the selection set, and the field below is lost. -/
theorem tells_closing : closing.Tells ['}'] := by
  have hneutral : closing.fields? neutral
      = some [⟨['a'], Field.scalarType, []⟩, ⟨['b'], Field.scalarType, []⟩] := by
    have hlines : ofLines [['b'], []] = [['b']] := by decide
    rw [fields?_arguments sound_closing "x: \"v\")".toList [['b'], []] rfl (by decide) (by decide)
      (by decide) (by decide), hlines, Selection.fieldsFrom_letter (by decide),
      if_neg (by decide), Selection.fieldsFrom_nil]
  have hbody : (Block.take (closing.line ['}']) closing.below).body = ["a(x: \"".toList] := by
    decide
  have hbrace : closing.fields? ['}'] = some (Selection.fields ['Q'] ["a(x: \"".toList]) := by
    rw [fields?, sound_closing.fields_fill (by decide) (by decide) (by decide), hbody]
    rfl
  refine tells_of_fields hneutral hbrace fun heq => ?_
  -- what stands on one line is one field at most
  have hlength := Selection.length_fields_singleton_le ['Q'] "a(x: \"".toList
  rw [heq] at hlength
  exact absurd hlength (by decide)

theorem clean_fragment (hw : IsContent w) (hne : w ≠ []) :
    clean (fragment.line w) = fragment.line w :=
  clean_line sound_fragment hw hne (by decide) (by decide)

theorem count_fragment (w : Text) :
    (fragment.line w).count '(' = w.count '(' + 1 ∧ (fragment.line w).count ')' = w.count ')' + 1
      ∧ (fragment.line w).count '{' = w.count '{' + 1
      ∧ (fragment.line w).count '}' = w.count '}' := by
  have hfront : fragment.front.count '(' = 1 ∧ fragment.front.count ')' = 0
      ∧ fragment.front.count '{' = 0 ∧ fragment.front.count '}' = 0 := by decide
  have hback : fragment.back.count '(' = 0 ∧ fragment.back.count ')' = 1
      ∧ fragment.back.count '{' = 1 ∧ fragment.back.count '}' = 0 := by decide
  rw [count_line _ (by decide), count_line _ (by decide), count_line _ (by decide),
    count_line _ (by decide)]
  omega

/-- With a content that says nothing the fragment is skipped with its block. -/
theorem fields?_fragment :
    fragment.fields? neutral = some [⟨['c'], Field.scalarType, []⟩] := by
  have hbody : (Block.take (fragment.line neutral) fragment.below).body
      = [fragment.line neutral, ['b'], ['}'], ['c'], []] := by decide
  have hlines : ofLines [fragment.line neutral, ['b'], ['}'], ['c'], []]
      = [fragment.line neutral, ['b'], ['}'], ['c']] := by decide
  have hneither := Selection.neither_of_head (l := fragment.line neutral) (c := '.') rfl (by decide)
  have hskipped : (Block.take (after '{' (fragment.line neutral)) [['b'], ['}'], ['c']]).consumed
      = 2 := by decide
  rw [fields?, sound_fragment.fields_fill (by decide) (by decide) (by decide), hbody,
    ← Selection.fieldsFrom_ofLines, hlines,
    Selection.fieldsFrom_skip hneither.1 hneither.2 (by decide), hskipped]
  change some (Selection.fieldsFrom ['Q'] [] [['c']]) = _
  rw [Selection.fieldsFrom_letter (by decide), if_neg List.not_mem_nil,
    Selection.fieldsFrom_nil]

/-- A literal that closes the selection set around it leaves a part of a fragment there. -/
theorem tells_fragment_of_closes (hw : IsContent w) (hne : w ≠ [])
    (hheader : Header.locate? w = none) {before : Text} (hrun : Block.run 0 w = .closes before) :
    fragment.Tells w := by
  refine tells_of_fields fields?_fragment (sound_fragment.fields_fill hw hne hheader) ?_
  have hline : Block.run 0 (fragment.line w) = .closes (fragment.front ++ ['"'] ++ before) := by
    rw [run_line fragment (j := 0) (by decide), Block.run_append_of_closes hrun]
    rfl
  rw [Block.take, Block.takeFrom_closes hline,
    Selection.fields_singleton_of_head rfl (by decide) (by decide) (by decide)]
  exact (List.cons_ne_nil _ _).symm

/-- Unless the literal closes the selection set, all lines of the scene belong to it, but for a
brace that may end it. -/
theorem body_fragment {j : Nat} (hrun : Block.run 0 w = .stays j) :
    ∃ last : Text, (last = [] ∨ last = ['}'])
      ∧ (Block.take (fragment.line w) fragment.below).body
        = [fragment.line w, ['b'], ['}'], ['c'], last] := by
  have hline : Block.run 0 (fragment.line w) = .stays (j + 1) := by
    rw [run_line fragment (j := 0) (by decide), Block.run_append_of_stays hrun]
    rfl
  have hb : Block.run (j + 1) ['b'] = .stays (j + 1) := rfl
  have hbrace : Block.run (j + 1) ['}'] = .stays j := rfl
  have hc : Block.run j ['c'] = .stays j := rfl
  unfold fragment at hline ⊢
  rw [Block.take, Block.takeFrom_cons hline, Block.takeFrom_cons hb, Block.takeFrom_cons hbrace,
    Block.takeFrom_cons hc]
  cases j with
  | zero => exact ⟨[], .inl rfl, rfl⟩
  | succ j => exact ⟨['}'], .inr rfl, rfl⟩

/-- Parentheses that are opened and not closed join the lines below to that of the fragment. -/
theorem tells_fragment_of_open (hw : IsContent w) (hne : w ≠ []) (hheader : Header.locate? w = none)
    {j : Nat} (hrun : Block.run 0 w = .stays j) (hcount : w.count ')' < w.count '(') :
    fragment.Tells w := by
  refine tells_of_fields fields?_fragment (sound_fragment.fields_fill hw hne hheader) ?_
  obtain ⟨last, hlast, hbody⟩ := body_fragment hrun
  obtain ⟨hopen, hclose, -⟩ := count_fragment w
  have hbelow : ∀ m ∈ [['b'], ['}'], ['c'], last].map clean, '(' ∉ m ∧ ')' ∉ m := by
    rcases hlast with rfl | rfl <;> decide
  rw [hbody, Selection.fields_of_open rfl (by decide) (by decide) (by decide) ?_ hbelow]
  · exact (List.cons_ne_nil _ _).symm
  · rw [clean_fragment hw hne]
    omega

/-- A block in which another one is open behind its first line takes in all lines of the scene. -/
theorem consumed_fragment {i : Nat} {t last : Text} (ht : Block.run 0 t = .stays (i + 1))
    (hlast : last = [] ∨ last = ['}']) :
    (Block.take t (ofLines [['b'], ['}'], ['c'], last])).consumed
      = (ofLines [['b'], ['}'], ['c'], last]).length := by
  have hb : Block.run (i + 1) ['b'] = .stays (i + 1) := rfl
  have hbrace : Block.run (i + 1) ['}'] = .stays i := rfl
  have hc : Block.run i ['c'] = .stays i := rfl
  rcases hlast with rfl | rfl
  · have hlines : ofLines [['b'], ['}'], ['c'], []] = [['b'], ['}'], ['c']] := by decide
    rw [hlines, Block.take, Block.takeFrom_cons ht, Block.takeFrom_cons hb,
      Block.takeFrom_cons hbrace, Block.takeFrom_nil hc]
    rfl
  · have hlines : ofLines [['b'], ['}'], ['c'], ['}']] = [['b'], ['}'], ['c'], ['}']] := by decide
    rw [hlines, Block.take, Block.takeFrom_cons ht, Block.takeFrom_cons hb,
      Block.takeFrom_cons hbrace, Block.takeFrom_cons hc]
    cases i <;> rfl

/-- The block that is skipped starts at the brace in the literal. It ends in the literal, too, and
what it should hold is found behind it, or else it takes in the field behind the fragment. -/
theorem tells_fragment_of_block (hw : IsContent w) (hne : w ≠ [])
    (hheader : Header.locate? w = none) {j : Nat} (hrun : Block.run 0 w = .stays j)
    (hmem : '{' ∈ w) (hcount : w.count '(' ≤ w.count ')') : fragment.Tells w := by
  refine tells_of_fields fields?_fragment (sound_fragment.fields_fill hw hne hheader) ?_
  obtain ⟨last, hlast, hbody⟩ := body_fragment hrun
  obtain ⟨hopen, hclose, hopening, hclosing⟩ := count_fragment w
  have hneither := Selection.neither_of_head (l := fragment.line w) (c := '.') rfl (by decide)
  have hsurplus := Block.surplus_of_stays hrun
  unfold Block.surplus at hsurplus
  have hafter : after '{' (fragment.line w) = after '{' w ++ '"' :: fragment.back := by
    unfold line
    rw [after_append_of_not_mem (by decide), quoted_append, after_cons_of_ne (by decide),
      after_append_of_mem hmem]
  rw [hbody, ← Selection.fieldsFrom_ofLines,
    ofLines_cons_of_clean (clean_fragment hw hne) (List.cons_ne_nil _ _) (by omega),
    Selection.fieldsFrom_skip hneither.1 hneither.2 (by omega), hafter]
  cases hskip : Block.run 0 (after '{' w) with
  | closes before =>
    have hfound : ofLines [['b'], ['}'], ['c'], last] = ['b'] :: ofLines [['}'], ['c'], last] := by
      rcases hlast with rfl | rfl <;> decide
    rw [Block.take, Block.takeFrom_closes (Block.run_append_of_closes hskip _), List.drop_zero,
      hfound, Selection.fieldsFrom_letter (by decide), if_neg List.not_mem_nil]
    exact fun heq => absurd (congrArg Field.name (List.cons.inj heq).1) (by decide)
  | stays i =>
    have hfirst : Block.run 0 (after '{' w ++ '"' :: fragment.back) = .stays (i + 1) := by
      rw [Block.run_append_of_stays hskip]
      rfl
    rw [consumed_fragment hfirst hlast, List.drop_length, Selection.fieldsFrom_nil]
    exact (List.cons_ne_nil _ _).symm

/-- Braces are always taken for some that open or close a block. -/
theorem tells_fragment_of_braces (hw : IsContent w) (hheader : Header.locate? w = none)
    (hbraces : '{' ∈ w ∨ '}' ∈ w) : fragment.Tells w := by
  have hne : w ≠ [] := by
    rintro rfl
    exact hbraces.elim List.not_mem_nil List.not_mem_nil
  cases hrun : Block.run 0 w with
  | closes before => exact tells_fragment_of_closes hw hne hheader hrun
  | stays j =>
    by_cases hcount : w.count ')' < w.count '('
    · exact tells_fragment_of_open hw hne hheader hrun hcount
    · refine tells_fragment_of_block hw hne hheader hrun ?_ (Nat.le_of_not_lt hcount)
      by_contra hno
      have hj : j = 0 := Nat.le_zero.1 (Block.stays_of_no_opening hno hrun)
      subst hj
      exact hbraces.elim hno (Block.no_closing_of_stays hno hrun)

/-! ## Parentheses that are closed -/

/-- With a content that says nothing all lines belong to the arguments of the fragment. -/
theorem fields?_spanning : spanning.fields? neutral = some [] := by
  have hbody : (Block.take (spanning.line neutral) spanning.below).body
      = [spanning.line neutral, ['b'], [')'], []] := by decide
  have hlines : ofLines [spanning.line neutral, ['b'], [')'], []]
      = ["...F @d(x: \"v\", y: b )".toList] := by decide
  rw [fields?, sound_spanning.fields_fill (by decide) (by decide) (by decide), hbody,
    ← Selection.fieldsFrom_ofLines, hlines,
    Selection.fieldsFrom_of_neither (Selection.neither_of_head (c := '.') rfl (by decide))]

/-- A parenthesis that the literal closes is taken for the end of the arguments, and the line is
complete without the lines below that hold their rest. -/
theorem tells_spanning (hw : IsContent w) (hheader : Header.locate? w = none) (hopening : '{' ∉ w)
    (hclosing : '}' ∉ w) (hcount : w.count '(' < w.count ')') : spanning.Tells w := by
  have hne : w ≠ [] := by
    rintro rfl
    exact absurd hcount (Nat.lt_irrefl 0)
  refine tells_of_fields fields?_spanning (sound_spanning.fields_fill hw hne hheader) ?_
  have hline : Block.run 0 (spanning.line w) = .stays 0 :=
    run_around_of_no_braces (j := 0) (by decide) hopening hclosing (by decide)
  have hbody : (Block.take (spanning.line w) spanning.below).body
      = [spanning.line w, ['b'], [')'], []] := by
    unfold spanning at hline ⊢
    rw [Block.take, Block.takeFrom_cons hline]
    rfl
  have hclean : clean (spanning.line w) = spanning.line w :=
    clean_line sound_spanning hw hne (by decide) (by decide)
  have hcomplete : (spanning.line w).count '(' ≤ (spanning.line w).count ')' := by
    have hfront : spanning.front.count '(' = 1 ∧ spanning.front.count ')' = 0 := by decide
    have hback : spanning.back.count '(' = 0 ∧ spanning.back.count ')' = 0 := by decide
    rw [count_line _ (by decide), count_line _ (by decide)]
    omega
  have hbraces : (spanning.line w).count '{' = 0 := by
    rw [count_line _ (by decide), List.count_eq_zero.2 hopening]
    decide
  have hneither := Selection.neither_of_head (l := spanning.line w) (c := '.') rfl (by decide)
  have hfound : ofLines [['b'], [')'], []] = [['b'], [')']] := by decide
  rw [hbody, ← Selection.fieldsFrom_ofLines,
    ofLines_cons_of_clean hclean (List.cons_ne_nil _ _) hcomplete,
    Selection.fieldsFrom_unrecognised hneither.1 hneither.2 (by omega), hfound,
    Selection.fieldsFrom_letter (by decide), if_neg List.not_mem_nil]
  exact List.cons_ne_nil _ _

/-! ## Parentheses that end the arguments -/

/-- A parenthesis in the literal is taken for the end of the arguments, and unless further ones open
in the literal the rest of it stands where the line should end. -/
theorem leaf?_single (hclose : ')' ∈ w)
    (hreopens : LineShape.skipDirectives (after ')' w ++ ['"', ')']) ≠ []) :
    Selection.leaf? ((single 'Q').line w) = none := by
  have hname : name? ((single 'Q').line w) = some (['a'], "(x: ".toList ++ (quoted w ++ [')'])) :=
    rfl
  have hstart : trimStart ("(x: ".toList ++ (quoted w ++ [')']))
      = '(' :: ("x: ".toList ++ (quoted w ++ [')'])) := rfl
  have hcolon : (trimStart ("(x: ".toList ++ (quoted w ++ [')']))).head? ≠ some ':' := by
    rw [hstart, List.head?_cons]
    decide
  have hmem : ')' ∈ "x: ".toList ++ (quoted w ++ [')']) :=
    List.mem_append_right _ (List.mem_append_right _ List.mem_cons_self)
  have hafter : after ')' ("x: ".toList ++ (quoted w ++ [')'])) = after ')' w ++ ['"', ')'] := by
    rw [after_append_of_not_mem (by decide), quoted_append, after_cons_of_ne (by decide),
      after_append_of_mem hclose]
  have htail : LineShape.skipTail ("(x: ".toList ++ (quoted w ++ [')']))
      = LineShape.skipDirectives (after ')' w ++ ['"', ')']) := by
    rw [LineShape.skipTail_of_arguments hstart hmem, hafter]
  -- what is left ends as the line does
  obtain ⟨u, hu⟩ := LineShape.skipDirectives_suffix (after ')' w ++ ['"', ')'])
  generalize LineShape.skipDirectives (after ')' w ++ ['"', ')']) = rest at *
  have hlast : rest.getLast? = some ')' := by
    rw [← List.getLast?_append_of_ne_nil u hreopens, hu]
    exact List.getLast?_append_of_ne_nil _ (List.cons_ne_nil _ _)
  have hsimple : LineShape.simple? ((single 'Q').line w) = none := by
    by_cases hhead : rest.head? = some ':'
    · obtain ⟨type, rfl⟩ := List.head?_eq_some_iff.1 hhead
      have htype : type.getLast? = some ')' := by
        cases type with
        | nil => cases hlast
        | cons c type => exact hlast
      have hend : ((trimStart type).dropWhile isTypeChar).getLast? = some ')' :=
        getLast?_dropWhile (getLast?_dropWhile htype (by decide)) (by decide)
      rw [LineShape.simple?_of_colon hname htail, LineShape.isLineEnd_of_getLast? hend]
      exact if_neg fun h => Bool.false_ne_true h.2
    · rw [LineShape.simple?_of_no_colon hname (by rw [htail]; exact hhead), htail,
        LineShape.isLineEnd_of_getLast? hlast]
      rfl
  unfold Selection.leaf?
  rw [hsimple, LineShape.aliased?_of_no_alias hname hcolon]
  rfl

theorem tells_single (hw : IsContent w) (hheader : Header.locate? w = none) (hopening : '{' ∉ w)
    (hclosing : '}' ∉ w) (hclose : ')' ∈ w)
    (hreopens : LineShape.skipDirectives (after ')' w ++ ['"', ')']) ≠ [])
    (hbalanced : w.count '(' = w.count ')') :
    (single 'Q').Tells w := by
  have hne : w ≠ [] := List.ne_nil_of_mem hclose
  have hsound := sound_single 'Q' (.inl rfl)
  refine tells_of_fields (fields?_single 'Q' (.inl rfl)) (hsound.fields_fill hw hne hheader) ?_
  have hline : Block.run 0 ((single 'Q').line w) = .stays 0 :=
    run_around_of_no_braces (j := 0) (by decide) hopening hclosing (by decide)
  have hbody : (Block.take ((single 'Q').line w) (single 'Q').below).body
      = [(single 'Q').line w, []] := by
    unfold single at hline ⊢
    rw [Block.take, Block.takeFrom_cons hline]
    rfl
  have hclean : clean ((single 'Q').line w) = (single 'Q').line w :=
    clean_line hsound hw hne (by decide) (by decide)
  have hcomplete : ((single 'Q').line w).count '(' ≤ ((single 'Q').line w).count ')' := by
    have hfront : (single 'Q').front.count '(' = 1 ∧ (single 'Q').front.count ')' = 0 := by decide
    have hback : (single 'Q').back.count '(' = 0 ∧ (single 'Q').back.count ')' = 1 := by decide
    rw [count_line _ (by decide), count_line _ (by decide)]
    omega
  have hno : '{' ∉ (single 'Q').line w := by
    rw [← List.count_eq_zero, count_line _ (by decide), List.count_eq_zero.2 hopening]
    decide
  have hneither := And.intro (LineShape.opening?_eq_none hno) (leaf?_single hclose hreopens)
  have hempty : ofLines [[]] = [] := by decide
  rw [hbody, ← Selection.fieldsFrom_ofLines,
    ofLines_cons_of_clean hclean (List.cons_ne_nil _ _) hcomplete, hempty,
    Selection.fieldsFrom_of_neither hneither]
  exact (List.cons_ne_nil _ _).symm

/-! ## Number signs -/

/-- The text between the brace in the first literal of a line and the second literal. -/
def between : Text := "\", z: ".toList

/-- A parenthesis in the first literal is taken for the end of the arguments, and so the brace
behind it for that of a selection. -/
theorem opening?_blockFront {t : Text} (ht : '\n' ∉ t) :
    LineShape.opening? (blockFront ++ t) = some ⟨none, ['a'], between ++ t⟩ := by
  have hname : name? (blockFront ++ t) = some (['a'], "(x: \")\x7b\", z: ".toList ++ t) := rfl
  have hstart : trimStart ("(x: \")\x7b\", z: ".toList ++ t)
      = '(' :: ("x: \")\x7b\", z: ".toList ++ t) := rfl
  have hcolon : (trimStart ("(x: \")\x7b\", z: ".toList ++ t)).head? ≠ some ':' := by
    rw [hstart, List.head?_cons]
    decide
  have hmem : ')' ∈ "x: \")\x7b\", z: ".toList := by decide
  have hafter : after ')' "x: \")\x7b\", z: ".toList = '{' :: between := by decide
  have hbrace : trimStart ('{' :: (between ++ t)) = '{' :: (between ++ t) := rfl
  have htail : LineShape.skipTail ("(x: \")\x7b\", z: ".toList ++ t) = '{' :: (between ++ t) := by
    rw [LineShape.skipTail_of_arguments hstart (List.mem_append_left _ hmem),
      after_append_of_mem hmem, hafter, List.cons_append, LineShape.skipDirectives_of_head, hbrace]
    rw [hbrace, List.head?_cons]
    decide
  have hfeed : '\n' ∉ between ++ t := by
    intro hm
    rcases List.mem_append.1 hm with hm | hm
    · revert hm
      decide
    · exact ht hm
  rw [LineShape.opening?_of_no_alias hname hcolon]
  unfold LineShape.openingTail?
  rw [htail]
  exact if_neg hfeed

/-- In a block that starts in a literal, the quote in front of the second literal ends one, and what
the second literal holds is cut at its number sign. -/
theorem clean_between (hw : IsContent w) (hsign : '#' ∈ w) (back : Text) :
    clean (between ++ (quoted w ++ back)) = (between ++ ['"']) ++ trimEnd (before '#' w) := by
  have hfront : '#' ∉ between ++ ['"'] := by decide
  have hbefore : '#' ∉ before '#' w := by
    intro hm
    have := List.mem_takeWhile_imp hm
    revert this
    decide
  have hpast : Quotation.unquoted.past (between ++ ['"']) = .unquoted := by decide
  have hcontent : IsContent (before '#' w) := by
    have hsub := (List.takeWhile_sublist (· != '#') (l := w)).subset
    exact ⟨fun h => hw.quote (hsub h), fun h => hw.backslash (hsub h),
      fun c hc => hw.unbroken c (hsub hc)⟩
  have hline : between ++ (quoted w ++ back)
      = (between ++ ['"']) ++ (before '#' w ++ '#' :: (after '#' w ++ '"' :: back)) := by
    rw [quoted_append]
    conv => lhs; rw [← before_append_after hsign]
    simp only [List.append_assoc, List.cons_append, List.nil_append]
  have hcut : cut (between ++ (quoted w ++ back)) = (between ++ ['"']) ++ before '#' w := by
    unfold cut
    rw [hline, cutFrom_append_of_no_sign hfront, hpast, cutFrom_append_of_no_sign hbefore,
      Quotation.past_content hcontent (by decide), cutFrom, if_pos ⟨rfl, rfl⟩, List.append_nil]
  have hquote : isBlank '"' = false := by decide
  unfold clean trim
  rw [hcut]
  have hstart : trimStart ((between ++ ['"']) ++ before '#' w)
      = (between ++ ['"']) ++ before '#' w := rfl
  rw [hstart, List.append_assoc, List.singleton_append, trimEnd_append_cons hquote,
    List.append_cons]

/-- What is left of the text between the literals when the second one is cut. -/
theorem count_between (hw : IsContent w) (hsign : '#' ∈ w) (back : Text) {c : Char}
    (hc : isBlank c = false) (hbetween : (between ++ ['"']).count c = 0) :
    (clean (between ++ (quoted w ++ back))).count c = (before '#' w).count c := by
  rw [clean_between hw hsign, List.count_append, count_trimEnd hc, hbetween, Nat.zero_add]

/-- In a scene with a block that starts in a literal, all lines below are in the block. -/
theorem fields_line {x : Scene} (hx : x.Sound) (hfront : x.front = blockFront) (hw : IsContent w)
    (hne : w ≠ []) (hback : trailing? x.back = none ∧ x.back.count '(' = 0)
    (hcount : w.count '(' = w.count ')') (hbelow : ofLines x.below = x.below ∧ x.below ≠ [])
    (hall : (Block.take (between ++ (quoted w ++ x.back)) x.below).consumed = x.below.length)
    (owner : Text) :
    Selection.fields owner (x.line w :: x.below)
      = [Selection.nestedField owner ['a'] (Selection.fields (Field.shapeName owner ['a'])
          (Block.take (between ++ (quoted w ++ x.back)) x.below).body)] := by
  have hclean : clean (x.line w) = x.line w :=
    clean_line hx hw hne (by rw [hfront]; decide) hback.1
  have hcomplete : (x.line w).count '(' ≤ (x.line w).count ')' := by
    have hparens : blockFront.count '(' = 1 ∧ blockFront.count ')' = 1 := by decide
    rw [count_line _ (by decide), count_line _ (by decide), hfront]
    omega
  have hnil : x.line w ≠ [] := (hx.isLive_line hw hne).2
  have hfeed : '\n' ∉ quoted w ++ x.back := by
    intro hm
    have hunbroken := List.forall_mem_append.2 ⟨hw.unbroken_quoted, hx.unbroken.2.2⟩ _ hm
    rw [isLineBreak_feed] at hunbroken
    cases hunbroken
  have hopening : LineShape.opening? (x.line w)
      = some ⟨none, ['a'], between ++ (quoted w ++ x.back)⟩ := by
    rw [line, hfront]
    exact opening?_blockFront hfeed
  have hpos : 0 < x.below.length := List.length_pos_of_ne_nil hbelow.2
  rw [← Selection.fieldsFrom_ofLines, ofLines_cons_of_clean hclean hnil hcomplete, hbelow.1,
    Selection.fieldsFrom_opening hopening]
  dsimp only
  rw [hall, if_neg List.not_mem_nil, if_pos hpos, List.drop_length, Selection.fieldsFrom_nil]
  rfl

/-- What a field with a block that starts in a literal is with a content that says nothing. -/
theorem fields?_neutral_line {x : Scene} (hx : x.Sound) (hfront : x.front = blockFront)
    (hback : trailing? x.back = none ∧ x.back.count '(' = 0)
    (hbelow : ofLines x.below = x.below ∧ x.below ≠ [])
    (hbody : (Block.take (x.line neutral) x.below).body = x.line neutral :: x.below)
    (hall : (Block.take (between ++ (quoted neutral ++ x.back)) x.below).consumed
      = x.below.length) :
    x.fields? neutral
      = some [Selection.nestedField [x.name] ['a'] (Selection.fields
          (Field.shapeName [x.name] ['a'])
          (Block.take (between ++ (quoted neutral ++ x.back)) x.below).body)] := by
  rw [fields?, hx.fields_fill (by decide) (by decide) (by decide), hbody,
    fields_line hx hfront (by decide) (by decide) hback (by decide) hbelow hall]

theorem fields?_inBlock :
    inBlock.fields? neutral = some [⟨['a'], ['Q', 'A'], [⟨['b'], Field.scalarType, []⟩]⟩] := by
  have hbody : (Block.take (between ++ (quoted neutral ++ inBlock.back)) inBlock.below).body
      = ["\", z: \"v\")".toList, ['b'], []] := by decide
  have hlines : ofLines ["\", z: \"v\")".toList, ['b'], []] = ["\", z: \"v\")".toList, ['b']] := by
    decide
  have hneither := Selection.neither_of_head (l := "\", z: \"v\")".toList) (c := '"') rfl
    (by decide)
  have hfields : Selection.fields (Field.shapeName [inBlock.name] ['a'])
      ["\", z: \"v\")".toList, ['b'], []] = [⟨['b'], Field.scalarType, []⟩] := by
    rw [← Selection.fieldsFrom_ofLines, hlines,
      Selection.fieldsFrom_unrecognised hneither.1 hneither.2 (by decide),
      Selection.fieldsFrom_letter (by decide), if_neg List.not_mem_nil,
      Selection.fieldsFrom_nil]
  rw [fields?_neutral_line sound_inBlock rfl (by decide) (by decide) (by decide) (by decide), hbody,
    hfields]
  decide

theorem fields?_aboveBlock :
    aboveBlock.fields? neutral = some [⟨['a'], Field.objectType, []⟩] := by
  have hbody : (Block.take (between ++ (quoted neutral ++ aboveBlock.back)) aboveBlock.below).body
      = ["\", z: \"v\") \x7b".toList, ['b'], ['}'], []] := by decide
  have hlines : ofLines ["\", z: \"v\") \x7b".toList, ['b'], ['}'], []]
      = ["\", z: \"v\") \x7b".toList, ['b'], ['}']] := by decide
  have hneither := Selection.neither_of_head (l := "\", z: \"v\") \x7b".toList) (c := '"') rfl
    (by decide)
  have hskipped : (Block.take (after '{' "\", z: \"v\") \x7b".toList) [['b'], ['}']]).consumed
      = 2 := by decide
  have hfields : Selection.fields (Field.shapeName [aboveBlock.name] ['a'])
      ["\", z: \"v\") \x7b".toList, ['b'], ['}'], []] = [] := by
    rw [← Selection.fieldsFrom_ofLines, hlines,
      Selection.fieldsFrom_skip hneither.1 hneither.2 (by decide), hskipped]
    exact Selection.fieldsFrom_nil _ _
  rw [fields?_neutral_line sound_aboveBlock rfl (by decide) (by decide) (by decide) (by decide),
    hbody, hfields]
  decide

/-- Where the rest of the second literal leaves a parenthesis open, it is joined to the field in the
block. -/
theorem tells_inBlock (hw : IsContent w) (hheader : Header.locate? w = none) (hopening : '{' ∉ w)
    (hclosing : '}' ∉ w) (hsign : '#' ∈ w) (hbalanced : w.count '(' = w.count ')')
    (hcount : (before '#' w).count ')' < (before '#' w).count '(') : inBlock.Tells w := by
  have hne : w ≠ [] := List.ne_nil_of_mem hsign
  refine tells_of_fields fields?_inBlock (sound_inBlock.fields_fill hw hne hheader) ?_
  have hline : Block.run 0 (inBlock.line w) = .stays 1 :=
    run_around_of_no_braces (j := 1) (by decide) hopening hclosing (by decide)
  have hinner : Block.run 0 (between ++ (quoted w ++ inBlock.back)) = .stays 0 :=
    run_around_of_no_braces (j := 0) (by decide) hopening hclosing (by decide)
  have hbody : (Block.take (inBlock.line w) inBlock.below).body
      = inBlock.line w :: inBlock.below := by
    unfold inBlock at hline ⊢
    rw [Block.take, Block.takeFrom_cons hline]
    rfl
  have hblock : Block.take (between ++ (quoted w ++ inBlock.back)) inBlock.below
      = ⟨[between ++ (quoted w ++ inBlock.back), ['b'], []], 2, true⟩ := by
    unfold inBlock at hinner ⊢
    rw [Block.take, Block.takeFrom_cons hinner]
    rfl
  have hlost : Selection.fields (Field.shapeName [inBlock.name] ['a'])
      [between ++ (quoted w ++ inBlock.back), ['b'], []] = [] := by
    refine Selection.fields_of_open rfl (by decide) (by decide) (by decide) ?_ (by decide) _
    rw [count_between hw hsign _ (by decide) (by decide),
      count_between hw hsign _ (by decide) (by decide)]
    exact hcount
  rw [hbody, fields_line sound_inBlock rfl hw hne (by decide) hbalanced (by decide)
    (by rw [hblock]; rfl), hblock, hlost]
  decide

/-- Otherwise the brace behind the second literal is cut off with its end, and what should be in the
block of that brace is in the one around it. -/
theorem tells_aboveBlock (hw : IsContent w) (hheader : Header.locate? w = none)
    (hopening : '{' ∉ w) (hclosing : '}' ∉ w) (hsign : '#' ∈ w)
    (hbalanced : w.count '(' = w.count ')')
    (hcount : (before '#' w).count '(' ≤ (before '#' w).count ')') : aboveBlock.Tells w := by
  have hne : w ≠ [] := List.ne_nil_of_mem hsign
  refine tells_of_fields fields?_aboveBlock (sound_aboveBlock.fields_fill hw hne hheader) ?_
  have hline : Block.run 0 (aboveBlock.line w) = .stays 2 :=
    run_around_of_no_braces (j := 1) (by decide) hopening hclosing (by decide)
  have hinner : Block.run 0 (between ++ (quoted w ++ aboveBlock.back)) = .stays 1 :=
    run_around_of_no_braces (j := 0) (by decide) hopening hclosing (by decide)
  have hbody : (Block.take (aboveBlock.line w) aboveBlock.below).body
      = aboveBlock.line w :: aboveBlock.below := by
    unfold aboveBlock at hline ⊢
    rw [Block.take, Block.takeFrom_cons hline]
    rfl
  have hblock : Block.take (between ++ (quoted w ++ aboveBlock.back)) aboveBlock.below
      = ⟨[between ++ (quoted w ++ aboveBlock.back), ['b'], ['}'], []], 3, true⟩ := by
    unfold aboveBlock at hinner ⊢
    rw [Block.take, Block.takeFrom_cons hinner]
    rfl
  have hkept : Selection.fields (Field.shapeName [aboveBlock.name] ['a'])
      [between ++ (quoted w ++ aboveBlock.back), ['b'], ['}'], []]
        = [⟨['b'], Field.scalarType, []⟩] := by
    obtain ⟨hnil, hopens, hleaf⟩ := Selection.neither_clean
      (l := between ++ (quoted w ++ aboveBlock.back)) (c := '"') rfl (by decide) (by decide)
      (by decide)
    have hparens : (clean (between ++ (quoted w ++ aboveBlock.back))).count '('
        ≤ (clean (between ++ (quoted w ++ aboveBlock.back))).count ')' := by
      rw [count_between hw hsign _ (by decide) (by decide),
        count_between hw hsign _ (by decide) (by decide)]
      exact hcount
    have hbrace : (clean (between ++ (quoted w ++ aboveBlock.back))).count '{' = 0 := by
      rw [count_between hw hsign _ (by decide) (by decide), List.count_eq_zero]
      exact fun hm => hopening ((List.takeWhile_sublist _).subset hm)
    have hfound : ofLines [['b'], ['}'], []] = [['b'], ['}']] := by decide
    have hbrace' := Selection.neither_of_head (l := ['}']) (c := '}') rfl (by decide)
    rw [← Selection.fieldsFrom_ofLines, ofLines_cons_of_closed hnil hparens,
      Selection.fieldsFrom_unrecognised hopens hleaf (by omega), hfound,
      Selection.fieldsFrom_letter (by decide), if_neg List.not_mem_nil,
      Selection.fieldsFrom_of_neither hbrace']
  rw [hbody, fields_line sound_aboveBlock rfl hw hne (by decide) hbalanced (by decide)
    (by rw [hblock]; rfl), hblock, hkept]
  decide

/-! ## Contents that are not harmless -/

/-- **Every content that is not harmless is misread in some scene**, with its literal among the
arguments there. -/
theorem exists_of_not_harmless (hw : IsContent w) (h : ¬ Harmless w) :
    ∃ x : Scene, x.slot.IsArgument neutral ∧ x.Tells w := by
  by_cases hne : w = []
  · subst hne
    exact ⟨neighbours, opens_neighbours.isArgument, tells_neighbours⟩
  cases hheader : Header.find? w with
  | some found =>
    by_cases hname : found.name = ['Q']
    · have hother : found.name ≠ ['R'] := by
        rw [hname]
        decide
      exact ⟨single 'R', (opens_single 'R' (.inr rfl)).isArgument,
        tells_single_of_header hw hne hheader (.inr rfl) hother⟩
    · exact ⟨single 'Q', (opens_single 'Q' (.inl rfl)).isArgument,
        tells_single_of_header hw hne hheader (.inl rfl) hname⟩
  | none =>
    have hlocate : Header.locate? w = none := Option.map_eq_none_iff.1 hheader
    by_cases hbraces : '{' ∈ w ∨ '}' ∈ w
    · exact ⟨fragment, opens_fragment.isArgument, tells_fragment_of_braces hw hlocate hbraces⟩
    obtain ⟨hopening, hclosing⟩ := not_or.1 hbraces
    rcases Nat.lt_trichotomy (w.count '(') (w.count ')') with hcount | hbalanced | hcount
    · exact ⟨spanning, opens_spanning.isArgument,
        tells_spanning hw hlocate hopening hclosing hcount⟩
    · by_cases hsign : '#' ∈ w
      · by_cases hopen : (before '#' w).count ')' < (before '#' w).count '('
        · exact ⟨inBlock, opens_inBlock.isArgument,
            tells_inBlock hw hlocate hopening hclosing hsign hbalanced hopen⟩
        · exact ⟨aboveBlock, opens_aboveBlock.isArgument,
            tells_aboveBlock hw hlocate hopening hclosing hsign hbalanced
              (Nat.le_of_not_lt hopen)⟩
      · have hreopens :
            ¬ (')' ∈ w → LineShape.skipDirectives (after ')' w ++ ['"', ')']) = []) :=
          fun hreopens =>
            h ⟨hw, hne, hlocate, hopening, hclosing, hsign, hbalanced, hreopens⟩
        obtain ⟨hclose, hleft⟩ := Classical.not_imp.1 hreopens
        exact ⟨single 'Q', (opens_single 'Q' (.inl rfl)).isArgument,
          tells_single hw hlocate hopening hclosing hclose hleft hbalanced⟩
    · have hrun := Block.run_of_no_braces hopening hclosing 0
      exact ⟨fragment, opens_fragment.isArgument,
        tells_fragment_of_open hw hne hlocate hrun hcount⟩

end Scene

end Literal

end GqlScan
