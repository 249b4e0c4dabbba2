import GqlScan.Proofs.SelectionLines
import GqlScan.Proofs.TrailingComments.Settings

/-!
# What a comment is taken for

For each thing that a comment can say to a scanner there is a setting in which it says it: a header
where there is none, a variable, the end of the selection set, the beginning of a block that goes
on, or a selection set of its own. And where the selection set opens inside a string literal, the
sign of the comment is itself taken for a part of a literal.

Main statements: `exists_of_not_plain`, for comments that are not plain, and `exists_in_literal`,
for any comment.
-/

namespace GqlScan

open Text Comment LogicalLine

namespace Setting

variable {w : Text}

/-! ## The settings -/

/-- The front of a line that ends behind a header. -/
def front : Text := ['q', 'u', 'e', 'r', 'y', ' ', 'Q', ' ']

/-- A line without header, where a comment is searched for one. -/
def header : Setting := ⟨[], ['a', ' '], []⟩

/-- A header without variables, where a comment is searched for them. -/
def parameters : Setting := ⟨[], front, []⟩

/-- A field with another one after it, where a comment can close the selection set between them. -/
def closing : Setting := ⟨[front ++ ['{']], ['a', ' '], [['b'], ['}']]⟩

/-- A field with another one after the end, where a comment can keep the selection set open. -/
def opening : Setting := ⟨[front ++ ['{']], ['a', ' '], [['}'], ['b']]⟩

/-- A header with the selection set on the lines below, where a comment can have a block of its
own. -/
def block : Setting := ⟨[], front, [['{'], ['a'], ['b'], ['}']]⟩

/-- A field with an argument in which a string literal is left open. -/
def argument : Text := ['(', '"', 'x', ')', ' ']

/-- A header with the brace inside a string literal, which the field in the block closes. -/
def literal : Setting :=
  ⟨[], ['q', 'u', 'e', 'r', 'y', ' ', 'Q', '(', '"', '{', ' ', 'i', 'd'] ++ argument, []⟩

theorem sound_header : header.Sound := by decide

theorem sound_parameters : parameters.Sound := by decide

theorem sound_closing : closing.Sound := by decide

theorem sound_opening : opening.Sound := by decide

theorem sound_block : block.Sound := by decide

theorem sound_literal : literal.Sound := by decide

/-! ## What is scanned with a comment -/

theorem ofLive?_header {h : Header} (hw : Header.find? w = some h) :
    Document.ofLive? (header.withComment w) ≠ Document.ofLive? header.bare := by
  have hnone : Document.ofLive? header.bare = none := by decide
  have hfind : Header.find? (['a', ' '] ++ '#' :: w) = some h := by
    rw [Header.find?_append_sign_of_none (by decide), hw]
  have hsome : Document.ofLive? (header.withComment w)
      = some (Document.operationOf h (header.withComment w)) :=
    Document.ofLive?_cons hfind fun l hl => by cases hl
  rw [hnone, hsome]
  exact Option.some_ne_none _

/-- The header of the settings below. -/
def query : Header := ⟨.query, ['Q']⟩

theorem locate?_front : Header.locate? front = some (query, [' ']) := by decide

theorem locate?_brace : Header.locate? (front ++ ['{']) = some (query, [' ', '{']) := by decide

theorem locate?_front_comment (w : Text) :
    Header.locate? (front ++ '#' :: w) = some (query, [' ', '#'] ++ w) := by
  rw [Header.locate?_append_sign, locate?_front]
  rfl

theorem firsts_ne_nil {vs : List Variable} (h : vs ≠ []) : Variable.firsts [] vs ≠ [] := by
  cases vs with
  | nil => exact absurd rfl h
  | cons v vs =>
    rw [Variable.firsts, if_neg List.not_mem_nil]
    exact List.cons_ne_nil _ _

theorem ofLive?_parameters (hw : Variable.inLine w ≠ []) :
    Document.ofLive? (parameters.withComment w) ≠ Document.ofLive? parameters.bare := by
  have hnone : Variable.inLines parameters.bare = [] := by
    have hline : Variable.inLine (trim front) = [] := Variable.inLine_eq_nil (by decide)
    show Variable.firsts [] (Variable.inLine (trim front) ++ []) = []
    rw [hline]
    rfl
  have hsome : Variable.inLines (parameters.withComment w) ≠ [] := by
    have hline : Variable.inLine (front ++ '#' :: w) = Variable.inLine w :=
      Variable.inLine_append_sign (by decide) w
    show Variable.firsts [] (Variable.inLine (front ++ '#' :: w) ++ []) ≠ []
    rw [hline, List.append_nil]
    exact firsts_ne_nil hw
  have hbare : Document.ofLive? parameters.bare
      = some (Document.operationOf query parameters.bare) :=
    Document.ofLive?_cons (by decide) fun l hl => by cases hl
  have hfind : Header.find? (front ++ '#' :: w) = some query := by
    rw [Header.find?, locate?_front_comment, Option.map_some]
  have hcomment : Document.ofLive? (parameters.withComment w)
      = some (Document.operationOf query (parameters.withComment w)) :=
    Document.ofLive?_cons hfind fun l hl => by cases hl
  intro heq
  rw [hbare, hcomment] at heq
  refine hsome (Eq.trans ?_ hnone)
  exact congrArg Operation.parameters (Option.some.inj heq)

/-- The field that a line of one letter names. -/
def letterField (c : Char) : Field := ⟨[c], Field.scalarType, []⟩

/-- The fields in the blocks of the settings, with and without a comment. -/
theorem fields_blocks :
    Selection.fields ['Q'] [[], ['a'], ['b'], []] = [letterField 'a', letterField 'b']
      ∧ Selection.fields ['Q'] [[], ['a']] = [letterField 'a']
      ∧ Selection.fields ['Q'] [[], ['a'], []] = [letterField 'a']
      ∧ Selection.fields ['Q'] [[], ['a'], ['}'], ['b']] = [letterField 'a', letterField 'b']
      ∧ Selection.fields ['Q'] [trimEnd ([' ', 'i', 'd'] ++ argument)]
        = [⟨['i', 'd'], Field.scalarType, []⟩] := by decide +kernel

/-- The fields of the selection set behind a head line. -/
theorem fields_of_cons {first after : Text} (rest : List Text)
    (hfirst : Header.locate? first = some (query, after))
    (hrest : ∀ l ∈ rest, Header.find? l = none) (hmem : '{' ∈ after) :
    (Document.ofLive? (first :: rest)).map Operation.fields
      = some (Selection.fields ['Q'] (Block.take (Text.after '{' after) rest).body) := by
  rw [Document.ofLive?_of_brace hfirst hrest hmem]
  rfl

theorem ne_of_fields {xs ys : List Text} {fs gs : List Field}
    (hx : (Document.ofLive? xs).map Operation.fields = some fs)
    (hy : (Document.ofLive? ys).map Operation.fields = some gs) (h : fs ≠ gs) :
    Document.ofLive? xs ≠ Document.ofLive? ys := by
  intro heq
  rw [heq, hy] at hx
  exact h (Option.some.inj hx).symm

theorem run_append_comment {t : Text} (hopen : '{' ∉ t) (hclose : '}' ∉ t) (k : Nat) (w : Text) :
    Block.run k (t ++ '#' :: w) = (Block.run k w).behind (t ++ ['#']) := by
  have hsign : Block.run k (t ++ ['#']) = .stays k := by
    refine Block.run_of_no_braces ?_ ?_ k
    · intro h
      rcases List.mem_append.1 h with h | h
      · exact hopen h
      · revert h
        decide
    · intro h
      rcases List.mem_append.1 h with h | h
      · exact hclose h
      · revert h
        decide
  have := Block.run_append_of_stays hsign w
  rwa [List.append_assoc] at this

/-- The line of a field with a comment is clean without it. -/
theorem clean_field (w : Text) : clean (['a', ' '] ++ '#' :: w) = ['a'] := by
  unfold clean
  rw [cut_append_sign (by decide) (by decide)]
  decide

/-- A comment on the first line of a block that starts behind the head line. -/
theorem fields_of_comment (hw : Header.find? w = none) (below : List Text)
    (hbelow : ∀ l ∈ below, Header.find? l = none) :
    (Document.ofLive? ((front ++ ['{']) :: (['a', ' '] ++ '#' :: w) :: below)).map
        Operation.fields
      = some (Selection.fields ['Q']
          (Block.takeFrom 0 [] ((['a', ' '] ++ '#' :: w) :: below)).body) := by
  have hrest : ∀ l ∈ (['a', ' '] ++ '#' :: w) :: below, Header.find? l = none := by
    intro l hl
    rcases List.mem_cons.1 hl with rfl | hl
    · rw [Header.find?_append_sign_of_none (by decide), hw]
    · exact hbelow l hl
  exact fields_of_cons _ locate?_brace hrest (by decide)

/-- The comment closes the block, and the field below it is lost. -/
theorem ofLive?_closing (hheader : Header.find? w = none) {before : Text}
    (hw : Block.run 0 w = .closes before) :
    Document.ofLive? (closing.withComment w) ≠ Document.ofLive? closing.bare := by
  have hbare := fields_of_cons [['a'], ['b'], ['}']] locate?_brace (by decide) (by decide)
  have hbareBody : (Block.take (Text.after '{' [' ', '{']) [['a'], ['b'], ['}']]).body
      = [[], ['a'], ['b'], []] := by decide
  have hempty : Block.run 0 [] = .stays 0 := rfl
  have hrun : Block.run 0 (['a', ' '] ++ '#' :: w) = .closes (['a', ' '] ++ '#' :: before) := by
    rw [run_append_comment (by decide) (by decide), hw]
    rfl
  have hbody : (Block.takeFrom 0 [] ((['a', ' '] ++ '#' :: w) :: closing.below)).body
      = [[], ['a', ' '] ++ '#' :: before] := by
    rw [Block.takeFrom_cons hempty, Block.takeFrom_closes hrun]
    rfl
  have hclean : Selection.fields ['Q'] [[], ['a', ' '] ++ '#' :: before]
      = Selection.fields ['Q'] [[], ['a']] := by
    apply Document.fields_congr
    rw [List.map_cons, List.map_singleton, clean_field]
    rfl
  have hfields := fields_of_comment hheader closing.below (by decide)
  rw [hbareBody, fields_blocks.1] at hbare
  rw [hbody, hclean, fields_blocks.2.1] at hfields
  exact ne_of_fields hfields hbare (by decide)

/-- The comment keeps the block open, and a field behind it is taken in. -/
theorem ofLive?_opening (hheader : Header.find? w = none) {k : Nat}
    (hw : Block.run 0 w = .stays (k + 1)) :
    Document.ofLive? (opening.withComment w) ≠ Document.ofLive? opening.bare := by
  have hbare := fields_of_cons [['a'], ['}'], ['b']] locate?_brace (by decide) (by decide)
  have hbareBody : (Block.take (Text.after '{' [' ', '{']) [['a'], ['}'], ['b']]).body
      = [[], ['a'], []] := by decide
  have hempty : Block.run 0 [] = .stays 0 := rfl
  have hrun : Block.run 0 (['a', ' '] ++ '#' :: w) = .stays (k + 1) := by
    rw [run_append_comment (by decide) (by decide), hw]
    rfl
  have hclose : Block.run (k + 1) ['}'] = .stays k := rfl
  have hlast : Block.run k ['b'] = .stays k := rfl
  have hbody : (Block.takeFrom 0 [] ((['a', ' '] ++ '#' :: w) :: opening.below)).body
      = [[], ['a', ' '] ++ '#' :: w, ['}'], ['b']] := by
    unfold opening
    rw [Block.takeFrom_cons hempty, Block.takeFrom_cons hrun, Block.takeFrom_cons hclose,
      Block.takeFrom_nil hlast]
    rfl
  have hclean : Selection.fields ['Q'] [[], ['a', ' '] ++ '#' :: w, ['}'], ['b']]
      = Selection.fields ['Q'] [[], ['a'], ['}'], ['b']] := by
    apply Document.fields_congr
    rw [List.map_cons, List.map_cons, clean_field]
    rfl
  have hfields := fields_of_comment hheader opening.below (by decide)
  rw [hbareBody, fields_blocks.2.2.1] at hbare
  rw [hbody, hclean, fields_blocks.2.2.2.1] at hfields
  exact ne_of_fields hfields hbare (by decide)

/-- The comment holds a block, which is taken for the selection set. -/
theorem ofLive?_block (hmem : '{' ∈ w) (hw : Block.run 0 w = .stays 0) :
    Document.ofLive? (block.withComment w) ≠ Document.ofLive? block.bare := by
  have hbare : (Document.ofLive? block.bare).map Operation.fields
      = some [letterField 'a', letterField 'b'] := by decide +kernel
  obtain ⟨before, hbefore⟩ := Block.run_after_of_balanced hmem hw
  have hbody : (Block.take (Text.after '{' w) block.below).body = [before] := by
    unfold Block.take
    rw [Block.takeFrom_closes hbefore]
  have hfields := fields_of_cons block.below (locate?_front_comment w) (by decide)
    (List.mem_append_right _ hmem)
  rw [after_append_of_not_mem (by decide), hbody] at hfields
  -- what stands on one line is one field at most, and the lines below hold two
  refine ne_of_fields hfields hbare fun heq => ?_
  have hlength := Selection.length_fields_singleton_le ['Q'] before
  rw [heq] at hlength
  exact absurd hlength (by decide)

/-! ## A comment that is taken for the inside of a literal -/

/-- The block starts behind the quote that opened the literal, so for the line in it the one quote
in the argument opens a literal, and the sign is no longer cut off. -/
theorem exists_clean_literal (w : Text) :
    ∃ u, clean ([' ', 'i', 'd'] ++ (argument ++ '#' :: w))
      = ['i', 'd'] ++ (argument ++ '#' :: u) := by
  have hopen : trailing? ([' ', 'i', 'd'] ++ argument) = none := by decide
  have hpast : Quotation.unquoted.past ([' ', 'i', 'd'] ++ argument) = .quoted := by decide
  have hcut : cut ([' ', 'i', 'd'] ++ (argument ++ '#' :: w))
      = [' ', 'i', 'd'] ++ (argument ++ '#' :: cutFrom .quoted w) := by
    unfold cut
    rw [← List.append_assoc, cutFrom_append_of_none hopen, hpast, List.append_assoc]
    rfl
  have hstart : trimStart ([' ', 'i', 'd'] ++ (argument ++ '#' :: cutFrom .quoted w))
      = ['i', 'd'] ++ argument ++ '#' :: cutFrom .quoted w := rfl
  have hsign : isBlank '#' = false := by decide
  refine ⟨trimEnd (cutFrom .quoted w), ?_⟩
  unfold clean trim
  rw [hcut, hstart, trimEnd_append_cons hsign, List.append_assoc]

/-- The argument ends at its parenthesis, and the sign is what is left behind it. -/
theorem skipTail_argument (u : Text) : LineShape.skipTail (argument ++ '#' :: u) = '#' :: u := by
  have hargs : trimStart (argument ++ '#' :: u) = '(' :: (['"', 'x', ')', ' '] ++ '#' :: u) := rfl
  have hmem : ')' ∈ ['"', 'x', ')', ' '] := by decide
  have hrest : Text.after ')' ['"', 'x', ')', ' '] = [' '] := by decide
  have hstart : trimStart ([' '] ++ '#' :: u) = '#' :: u := rfl
  have hat : (trimStart ([' '] ++ '#' :: u)).head? ≠ some '@' := by
    rw [hstart, List.head?_cons]
    decide
  rw [LineShape.skipTail_of_arguments hargs (List.mem_append_left _ hmem),
    after_append_of_mem hmem, hrest, LineShape.skipDirectives_of_head hat, hstart]

theorem name?_literal (u : Text) :
    name? (['i', 'd'] ++ (argument ++ '#' :: u)) = some (['i', 'd'], argument ++ '#' :: u) := rfl

theorem head?_argument (u : Text) : (trimStart (argument ++ '#' :: u)).head? ≠ some ':' := by
  have hstart : trimStart (argument ++ '#' :: u) = argument ++ '#' :: u := rfl
  have hhead : (argument ++ '#' :: u).head? = some '(' := rfl
  rw [hstart, hhead]
  decide

theorem opening?_literal (u : Text) :
    LineShape.opening? (['i', 'd'] ++ (argument ++ '#' :: u)) = none := by
  rw [LineShape.opening?_of_no_alias (name?_literal u) (head?_argument u),
    LineShape.openingTail?, skipTail_argument]
  rfl

theorem leaf?_literal (u : Text) :
    Selection.leaf? (['i', 'd'] ++ (argument ++ '#' :: u)) = none := by
  have hsimple : LineShape.simple? (['i', 'd'] ++ (argument ++ '#' :: u)) = none := by
    unfold LineShape.simple?
    rw [name?_literal]
    simp only [Option.bind_eq_bind, Option.bind_some, skipTail_argument]
    rfl
  unfold Selection.leaf?
  rw [hsimple]
  dsimp only
  rw [LineShape.aliased?_of_no_alias (name?_literal u) (head?_argument u)]
  rfl

/-- The field in the setting with a literal is none with a sign behind it. -/
theorem fields_literal (w : Text) :
    Selection.fields ['Q'] [[' ', 'i', 'd'] ++ (argument ++ '#' :: w)] = [] := by
  obtain ⟨u, hu⟩ := exists_clean_literal w
  have hne : clean ([' ', 'i', 'd'] ++ (argument ++ '#' :: w)) ≠ [] := by
    rw [hu]
    exact List.cons_ne_nil _ _
  have hitems := Selection.filterMap_field?_items_of_neither
    (opening?_literal u) (leaf?_literal u) ['Q']
  have hfirst : (Selection.itemsOf [[' ', 'i', 'd'] ++ (argument ++ '#' :: w)]).filterMap
      (Selection.Item.field? ['Q']) = [] := by
    unfold Selection.itemsOf
    rw [ofLines_singleton hne, hu]
    exact List.eq_nil_of_sublist_nil
      (hitems ▸ (Selection.firstWins_sublist _ _).filterMap (Selection.Item.field? ['Q']))
  rw [Selection.fields_eq, hfirst]

/-- The sign stands inside a literal of the block, and the field in front of it is lost. -/
theorem ofLive?_literal (w : Text) :
    Document.ofLive? (literal.withComment w) ≠ Document.ofLive? literal.bare := by
  have hbareLocate : Header.locate? (trim literal.line)
      = some (query, ['(', '"', '{'] ++ trimEnd ([' ', 'i', 'd'] ++ argument)) := by decide
  have hbare := fields_of_cons [] hbareLocate (fun l hl => by cases hl) (by decide)
  have hbareBody : (Block.take (Text.after '{'
        (['(', '"', '{'] ++ trimEnd ([' ', 'i', 'd'] ++ argument))) []).body
      = [trimEnd ([' ', 'i', 'd'] ++ argument)] := by decide
  have hlocate : Header.locate? literal.line
      = some (query, ['(', '"', '{'] ++ ([' ', 'i', 'd'] ++ argument)) := by decide
  have happ : Header.locate? (literal.line ++ '#' :: w)
      = some (query, ['(', '"', '{'] ++ ([' ', 'i', 'd'] ++ argument) ++ '#' :: w) := by
    rw [Header.locate?_append_sign, hlocate]
  have hmem : '{' ∈ ['(', '"', '{'] ++ ([' ', 'i', 'd'] ++ argument) := by decide
  have hrest : Text.after '{' (['(', '"', '{'] ++ ([' ', 'i', 'd'] ++ argument))
      = [' ', 'i', 'd'] ++ argument := by decide
  have hfields := fields_of_cons [] happ (fun l hl => by cases hl) (List.mem_append_left _ hmem)
  have hopen : '{' ∉ [' ', 'i', 'd'] ++ argument := by decide
  have hclose : '}' ∉ [' ', 'i', 'd'] ++ argument := by decide
  have hrun := run_append_comment hopen hclose 0 w
  -- where the comment closes the block matters as little as what it says
  obtain ⟨u, hu⟩ : ∃ u, (Block.take ([' ', 'i', 'd'] ++ argument ++ '#' :: w) []).body
      = [[' ', 'i', 'd'] ++ (argument ++ '#' :: u)] := by
    unfold Block.take
    cases hw : Block.run 0 w with
    | closes before =>
      rw [hw] at hrun
      rw [Block.takeFrom_closes hrun]
      exact ⟨before, rfl⟩
    | stays k =>
      rw [hw] at hrun
      rw [Block.takeFrom_nil hrun]
      exact ⟨w, rfl⟩
  rw [after_append_of_mem hmem, hrest, hu, fields_literal] at hfields
  rw [hbareBody, fields_blocks.2.2.2.2] at hbare
  exact ne_of_fields hfields hbare (by decide)

end Setting

namespace Comment

/-- A comment that is not plain influences the operation of some document. -/
theorem exists_of_not_plain {w : Text} (hw : CanTrail w) (h : ¬ Plain w) :
    ∃ content, trailing content = [w] ∧ Document.OpensOutside (liveText (withoutTrailing content))
      ∧ ¬ Document.Indifferent content := by
  have hsetting : ∀ s : Setting, s.Sound → Document.OpensOutside s.bare →
      Document.ofLive? (s.withComment w) ≠ Document.ofLive? s.bare →
      ∃ content, trailing content = [w] ∧ Document.OpensOutside (liveText (withoutTrailing content))
        ∧ ¬ Document.Indifferent content := fun s hs ho hne =>
    ⟨s.document w, hs.trailing_document hw, hs.liveText_withoutTrailing hw ▸ ho,
      hs.not_indifferent hw hne⟩
  -- headers first: a second header would change the scope in the settings for braces
  cases hheader : Header.find? w with
  | some header =>
    exact hsetting .header Setting.sound_header (by decide) (Setting.ofLive?_header hheader)
  | none =>
    by_cases hvariable : Variable.inLine w = []
    · cases hrun : Block.run 0 w with
      | closes before =>
        exact hsetting .closing Setting.sound_closing (by decide)
          (Setting.ofLive?_closing hheader hrun)
      | stays k =>
        cases k with
        | succ k =>
          exact hsetting .opening Setting.sound_opening (by decide)
            (Setting.ofLive?_opening hheader hrun)
        | zero =>
          -- balanced, so a comment with a brace has an opening one
          have hopen : '{' ∈ w := by
            by_contra hno
            exact h ⟨hheader, hvariable, hno, Block.no_closing_of_stays hno hrun⟩
          exact hsetting .block Setting.sound_block (by decide)
            (Setting.ofLive?_block hopen hrun)
    · exact hsetting .parameters Setting.sound_parameters (by decide)
        (Setting.ofLive?_parameters hvariable)

/-- In a block that opens inside a string literal no comment is harmless. -/
theorem exists_in_literal {w : Text} (hw : CanTrail w) :
    ∃ content, trailing content = [w] ∧ ¬ Document.Indifferent content :=
  ⟨Setting.literal.document w, Setting.sound_literal.trailing_document hw,
    Setting.sound_literal.not_indifferent hw (Setting.ofLive?_literal w)⟩

end Comment

end GqlScan
