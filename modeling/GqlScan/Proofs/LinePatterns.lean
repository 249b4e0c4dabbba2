import GqlScan.Proofs.LineGrammar
import GqlScan.Proofs.Patterns
import GqlScan.Selection.Scan

/-!
# The patterns of selection lines

The three shapes of a selection line as patterns. A reader of lines tries nothing: it takes each name
as far as it goes and each argument list to its first closing parenthesis. It gives what the groups
of its pattern take all the same, since both give what is written in the line, and that is the same
for all ways to write it.

No line has the shape that opens a selection together with a shape that names a field. A field ends in
blanks, a type or a comma, and none of them is the brace behind the name, the arguments and the
directives of a selection. So a scan may ask for fields first and for selections then.

Main statements: `leaf_shapes_of_opening?`, `scanFieldsFirst_eq` and `shapes_unambiguous`.
-/

namespace GqlScan

open Text Canonical TypeBlocks LineShape

/-! ## The patterns -/

namespace Pattern

def name : Pattern := repeated (one isNameChar)

def gap : Pattern := many (one isBlank)

def arguments : Pattern := letter '(' ++ (many (one (· != ')')) ++ letter ')')

def directive : Pattern := gap ++ (letter '@' ++ (name ++ (gap ++ optional arguments)))

def tail : Pattern := gap ++ (optional arguments ++ (many directive ++ gap))

/-- A line that opens a selection: the groups are its alias, its field and the rest of the line. -/
def opening : Pattern :=
  optional (group 1 name ++ (gap ++ (letter ':' ++ gap)))
    ++ (group 2 name ++ (tail ++ (letter '\x7b' ++ group 3 (many (one (· != '\n'))))))

/-- A line that names a field: the groups are the field and its type. -/
def simple : Pattern :=
  group 1 name ++ (tail ++ (optional (letter ':' ++ (gap ++ group 2 (repeated (one isTypeChar))))
    ++ (gap ++ optional (letter ','))))

/-- A line that names a field under an alias: the group is the alias. -/
def aliased : Pattern :=
  group 1 name ++ (gap ++ (letter ':' ++ (gap ++ (name ++ (tail ++ optional (letter ','))))))

/-- What the groups take where a selection is opened. -/
def openingGroups (o : Opening) : Groups :=
  (o.aliasName?.map fun n => (1, n)).toList ++ [(2, o.field), (3, o.after)]

/-- What the groups take where a field and its type are named. -/
def simpleGroups (parts : Text × Option Text) : Groups :=
  (1, parts.1) :: (parts.2.map fun type => (2, type)).toList

/-- What the group takes where an alias is recorded. -/
def aliasedGroups (recorded : Text) : Groups := [(1, recorded)]

/-! ## What they write -/

theorem writes_name : name.Writes (fun n : Name => n.1) (fun _ => []) := .repeated_one isNameChar

theorem writes_gap : gap.Writes (fun b : Gap => b.1) (fun _ => []) := .many_one isBlank

theorem writes_arguments : arguments.Writes Arguments.print (fun _ => []) :=
  ((Writes.letter '(').append ((Writes.many_except ')').append (.letter ')'))).of_surjective
    (fun x => ⟨x.2.1.1, x.2.1.2⟩) (fun a => ⟨((), ⟨a.content, a.unclosed⟩, ()), rfl⟩)
    (fun _ => rfl) (fun _ => rfl)

theorem writes_optional_arguments :
    (optional arguments).Writes Arguments.print? (fun _ => []) :=
  writes_arguments.optional.of_surjective id Function.surjective_id (fun _ => rfl)
    (fun arguments? => by cases arguments? <;> rfl)

theorem writes_directive : directive.Writes Directive.print (fun _ => []) :=
  (writes_gap.append ((Writes.letter '@').append
    (writes_name.append (writes_gap.append writes_optional_arguments)))).of_surjective
    (fun x => ⟨x.1, x.2.2.1, x.2.2.2.1, x.2.2.2.2⟩)
    (fun d => ⟨(d.before, (), d.name, d.between, d.arguments?), rfl⟩) (fun _ => rfl) (fun _ => rfl)

theorem writes_tail : tail.Writes Tail.print (fun _ => []) := by
  have hne : ∀ d : Directive, d.print ≠ [] := fun d => by simp [Directive.print]
  refine (writes_gap.append (writes_optional_arguments.append
    ((writes_directive.many hne).append writes_gap))).of_surjective
    (fun x => ⟨x.1, x.2.1, x.2.2.1, x.2.2.2⟩)
    (fun s => ⟨(s.before, s.arguments?, s.directives, s.after), rfl⟩) (fun _ => rfl) (fun x => ?_)
  simp

theorem writes_comma : (optional (letter ',')).Writes comma (fun _ => []) := by
  refine (Writes.letter ',').optional.of_surjective Option.isSome ?_ ?_ ?_
  · rintro (_ | _)
    · exact ⟨none, rfl⟩
    · exact ⟨some (), rfl⟩
  · rintro (_ | _) <;> rfl
  · rintro (_ | _) <;> rfl

theorem writes_opening :
    opening.Writes (fun d : { d : OpeningLine // '\n' ∉ d.rest } => d.1.print)
      (fun d => openingGroups d.1.parts) := by
  have hlabel := ((writes_name.group 1).append
    (writes_gap.append ((Writes.letter ':').append writes_gap))).optional
  have hrest := (Writes.letter '\x7b').append ((Writes.many_except '\n').group 3)
  refine (hlabel.append ((writes_name.group 2).append (writes_tail.append hrest))).of_surjective
    (fun x => ⟨⟨x.1.map fun l => ⟨l.1, l.2.1, l.2.2.2⟩, x.2.1, x.2.2.1, x.2.2.2.2.1⟩,
      x.2.2.2.2.2⟩) ?_ ?_ ?_
  · rintro ⟨⟨label?, field, tail, rest⟩, hfeed⟩
    cases label? with
    | none => exact ⟨(none, field, tail, (), ⟨rest, hfeed⟩), rfl⟩
    | some l => exact ⟨(some (l.name, l.before, (), l.after), field, tail, (), ⟨rest, hfeed⟩), rfl⟩
  · rintro ⟨_ | l, x⟩ <;> rfl
  · rintro ⟨_ | l, x⟩ <;> rfl

theorem writes_simple : simple.Writes SimpleLine.print (fun d => simpleGroups d.parts) := by
  have htyping := ((Writes.letter ':').append
    (writes_gap.append ((Writes.repeated_one isTypeChar).group 2))).optional
  refine ((writes_name.group 1).append (writes_tail.append
    (htyping.append (writes_gap.append writes_comma)))).of_surjective
    (fun x => ⟨x.1, x.2.1, x.2.2.1.map fun y => ⟨y.2.1, y.2.2⟩, x.2.2.2.1, x.2.2.2.2⟩) ?_ ?_ ?_
  · rintro ⟨field, tail, typing?, gap, ends⟩
    cases typing? with
    | none => exact ⟨(field, tail, none, gap, ends), rfl⟩
    | some y => exact ⟨(field, tail, some ((), y.gap, y.type), gap, ends), rfl⟩
  · rintro ⟨field, tail, _ | y, gap, ends⟩ <;> rfl
  · rintro ⟨field, tail, _ | y, gap, ends⟩ <;> rfl

theorem writes_aliased : aliased.Writes AliasedLine.print (fun d => aliasedGroups d.parts) := by
  have hend := writes_name.append (writes_tail.append writes_comma)
  refine ((writes_name.group 1).append (writes_gap.append ((Writes.letter ':').append
    (writes_gap.append hend)))).of_surjective
    (fun x => ⟨⟨x.1, x.2.1, x.2.2.2.1⟩, x.2.2.2.2.1, x.2.2.2.2.2.1, x.2.2.2.2.2.2⟩)
    (fun d => ⟨(d.label.name, d.label.before, (), d.label.after, d.field, d.tail, d.ends), rfl⟩)
    (fun x => ?_) (fun _ => rfl)
  simp [AliasedLine.print, Label.print]

end Pattern

/-! ## Readers and patterns -/

namespace LineShape

/-- A reader of lines, the pattern of its shape and how lines of this shape are written agree on a
line. -/
structure Agrees {α β : Type} (read : Text → Option β) (pattern : Pattern)
    (groups : β → Pattern.Groups) (print : α → Text) (parts : α → β) (line : Text) : Prop where
  /-- the line is accepted if it is written in the shape, and not otherwise -/
  accepts : (read line).isSome = true ↔ ∃ d, print d = line
  /-- its parts are the same for all ways to write it, and these are read -/
  reads : ∀ d, print d = line → read line = some (parts d)
  /-- the groups of the pattern take these parts -/
  captures : pattern.groups? line = (read line).map groups

section

variable {line : Text}

theorem Agrees.of_iff {α β : Type} {read : Text → Option β} {pattern : Pattern}
    {groups : β → Pattern.Groups} {print : α → Text} {parts : α → β}
    (hread : ∀ found, read line = some found ↔ ∃ d, print d = line ∧ parts d = found)
    (hcaptures : pattern.groups? line = (read line).map groups) :
    Agrees read pattern groups print parts line where
  accepts := by
    rw [Option.isSome_iff_exists]
    constructor
    · rintro ⟨found, hfound⟩
      obtain ⟨d, hd, -⟩ := (hread found).1 hfound
      exact ⟨d, hd⟩
    · rintro ⟨d, hd⟩
      exact ⟨parts d, (hread _).2 ⟨d, hd, rfl⟩⟩
  reads d hd := (hread _).2 ⟨d, hd, rfl⟩
  captures := hcaptures

theorem agrees_opening (hfeed : '\n' ∉ line) :
    Agrees opening? .opening Pattern.openingGroups OpeningLine.print OpeningLine.parts line := by
  refine .of_iff (fun o => opening?_eq_some_iff hfeed)
    (Pattern.writes_opening.groups?_eq_map fun o => (opening?_eq_some_iff hfeed).trans ⟨?_, ?_⟩)
  · rintro ⟨d, rfl, rfl⟩
    exact ⟨⟨d, fun hm => hfeed (d.rest_suffix.subset hm)⟩, rfl, rfl⟩
  · rintro ⟨d, hd⟩
    exact ⟨d.1, hd⟩

theorem agrees_simple (line : Text) :
    Agrees simple? .simple Pattern.simpleGroups SimpleLine.print SimpleLine.parts line :=
  .of_iff (fun _ => simple?_eq_some_iff)
    (Pattern.writes_simple.groups?_eq_map fun _ => simple?_eq_some_iff)

theorem agrees_aliased (line : Text) :
    Agrees aliased? .aliased Pattern.aliasedGroups AliasedLine.print AliasedLine.parts line :=
  .of_iff (fun _ => aliased?_eq_some_iff)
    (Pattern.writes_aliased.groups?_eq_map fun _ => aliased?_eq_some_iff)

/-! ## Selections are no fields -/

theorem isLineEnd_brace (rest : Text) : isLineEnd ('\x7b' :: rest) = false := by
  unfold isLineEnd
  rw [trimStart_of_stops (.cons (p := isBlank) (by decide) _)]
  rfl

/-- No brace stands in what ends a line. -/
theorem not_mem_of_isLineEnd {t : Text} (h : isLineEnd t = true) : '\x7b' ∉ t := by
  obtain ⟨gap, ends, rfl⟩ := isLineEnd_iff.1 h
  intro hm
  rcases List.mem_append.1 hm with hm | hm
  · exact gap.2.not_mem (by decide) hm
  · revert hm
    cases ends <;> decide

/-- **A line that opens a selection names no field.** -/
theorem leaf_shapes_of_opening? {o : Opening} (h : opening? line = some o) :
    simple? line = none ∧ aliased? line = none := by
  rcases opening?_cases h with ⟨first, more, after, hn, hhead, htail, -, -⟩
    | ⟨first, more, rest, field, more', after, hn, hcolon, hfield, htail, -, -⟩
  · have hne : (skipTail more).head? ≠ some ':' := by
      rw [htail]
      exact fun he => absurd (Option.some.inj he) (by decide)
    refine ⟨?_, aliased?_of_no_alias hn hhead⟩
    rw [simple?_of_no_colon hn hne, htail, isLineEnd_brace, if_neg Bool.false_ne_true]
  · constructor
    · -- what would be the type is in front of the brace
      have hskip : skipTail more = ':' :: rest := by
        have hhead : (trimStart more).head? = some ':' := by rw [hcolon, List.head?_cons]
        rw [skipTail_of_head, hcolon]
        · rw [hhead]
          decide
        · rw [hhead]
          decide
      have hbrace : '\x7b' ∈ trimStart rest := by
        have hmem : '\x7b' ∈ skipTail more' := htail ▸ List.mem_cons_self
        exact (name?_suffix hfield).subset ((skipTail_suffix more').subset hmem)
      rw [simple?_of_colon hn hskip, if_neg]
      rintro ⟨-, hend⟩
      rw [← List.takeWhile_append_dropWhile (p := isTypeChar) (l := trimStart rest)] at hbrace
      rcases List.mem_append.1 hbrace with hm | hm
      · exact absurd (List.mem_takeWhile_imp hm) (by decide)
      · exact not_mem_of_isLineEnd hend hm
    · rw [aliased?_of_alias hn hcolon, hfield, Option.bind_some, htail, isLineEnd_brace,
        if_neg Bool.false_ne_true]

end

end LineShape

namespace Selection

theorem leaf?_of_opening? {line : Text} {o : Opening} (h : opening? line = some o) :
    leaf? line = none := by
  obtain ⟨hsimple, haliased⟩ := leaf_shapes_of_opening? h
  unfold leaf?
  rw [hsimple, haliased]
  rfl

/-- Scan logical lines of a selection set, with a look for fields first and for selections then. -/
def scanFieldsFirst (owner : Text) (taken : List Text) (types : NestedTypes) (lines : List Text) :
    List Field × NestedTypes :=
  match lines with
  | [] => ([], types)
  | line :: rest =>
    match leaf? line with
    | some (name, type) =>
      if taken.contains name then scanFieldsFirst owner taken types rest
      else
        let later := scanFieldsFirst owner (name :: taken) types rest
        (⟨name, type, []⟩ :: later.1, later.2)
    | none =>
      match _h : opening? line with
      | some o =>
        let block := Block.take o.after rest
        if taken.contains o.name then
          scanFieldsFirst owner taken types (rest.drop block.consumed)
        else
          let shape := Field.shapeName owner o.name
          let inner :=
            if 0 < block.consumed then
              scanFieldsFirst shape [] types (LogicalLine.ofLines block.body)
            else ([], types)
          let later :=
            scanFieldsFirst owner (o.name :: taken) (inner.2.adopt shape inner.1)
              (rest.drop block.consumed)
          (nestedField owner o.name inner.1 :: later.1, later.2)
      | none =>
        if line.count '\x7d' < line.count '\x7b' then
          scanFieldsFirst owner taken types
            (rest.drop (Block.take (Text.after '\x7b' line) rest).consumed)
        else scanFieldsFirst owner taken types rest
termination_by (Block.braces lines, lines.length)
decreasing_by
  · exact Prod.Lex.right' _ (braces_drop_cons_le 0 line rest) (length_drop_lt_cons 0 line rest)
  · exact Prod.Lex.right' _ (braces_drop_cons_le 0 line rest) (length_drop_lt_cons 0 line rest)
  · exact Prod.Lex.right' _ (braces_drop_cons_le _ line rest) (length_drop_lt_cons _ line rest)
  · exact Prod.Lex.left _ _ (braces_body_lt_of_opening _h)
  · exact Prod.Lex.right' _ (braces_drop_cons_le _ line rest) (length_drop_lt_cons _ line rest)
  · exact Prod.Lex.right' _ (braces_drop_cons_le _ line rest) (length_drop_lt_cons _ line rest)
  · exact Prod.Lex.right' _ (braces_drop_cons_le 0 line rest) (length_drop_lt_cons 0 line rest)

section

variable {owner line : Text} {taken rest : List Text} {types : NestedTypes}

theorem scanFieldsFirst_opening {o : Opening} (h : opening? line = some o) :
    scanFieldsFirst owner taken types (line :: rest)
      = let block := Block.take o.after rest
        if taken.contains o.name then
          scanFieldsFirst owner taken types (rest.drop block.consumed)
        else
          let shape := Field.shapeName owner o.name
          let inner :=
            if 0 < block.consumed then
              scanFieldsFirst shape [] types (LogicalLine.ofLines block.body)
            else ([], types)
          let later :=
            scanFieldsFirst owner (o.name :: taken) (inner.2.adopt shape inner.1)
              (rest.drop block.consumed)
          (nestedField owner o.name inner.1 :: later.1, later.2) := by
  rw [scanFieldsFirst, leaf?_of_opening? h]
  dsimp only
  split
  · rename_i found hfound
    cases h.symm.trans hfound
    rfl
  · rename_i hnone
    cases h.symm.trans hnone

theorem scanFieldsFirst_neither (h : opening? line = none) (hleaf : leaf? line = none) :
    scanFieldsFirst owner taken types (line :: rest)
      = if line.count '\x7d' < line.count '\x7b' then
          scanFieldsFirst owner taken types
            (rest.drop (Block.take (Text.after '\x7b' line) rest).consumed)
        else scanFieldsFirst owner taken types rest := by
  rw [scanFieldsFirst, hleaf]
  dsimp only
  split
  · rename_i found hfound
    cases h.symm.trans hfound
  · rfl

end

/-- **It does not matter which shapes a scan asks for first.** -/
theorem scanFieldsFirst_eq (owner : Text) (taken : List Text) (types : NestedTypes)
    (lines : List Text) :
    scanFieldsFirst owner taken types lines = scanLines owner taken types lines := by
  fun_induction scanLines owner taken types lines with
  | case1 owner taken types => rw [scanFieldsFirst]
  | case2 owner taken types line rest o ho block hm ih =>
    rw [scanFieldsFirst_opening ho, if_pos (List.contains_iff_mem.2 hm)]
    exact ih
  | case3 owner taken types line rest o ho block hm shape inner later ihInner _ ihLater =>
    have hinner : (if 0 < block.consumed then
          scanFieldsFirst shape [] types (LogicalLine.ofLines block.body)
        else ([], types)) = inner := by
      by_cases hc : 0 < block.consumed
      · have hfound : inner = scanLines shape [] types (LogicalLine.ofLines block.body) :=
          dif_pos hc
        rw [if_pos hc, ihInner, hfound]
      · have hnone : inner = ([], types) := dif_neg hc
        rw [if_neg hc, hnone]
    have hlater : scanFieldsFirst owner (o.name :: taken) (inner.2.adopt shape inner.1)
        (rest.drop block.consumed) = later := ihLater
    rw [scanFieldsFirst_opening ho, if_neg fun hc => hm (List.contains_iff_mem.1 hc)]
    dsimp only
    rw [hinner, hlater]
  | case4 owner taken types line rest ho name type hl hm ih =>
    rw [scanFieldsFirst]
    simp only [hl, if_pos (List.contains_iff_mem.2 hm), ih]
  | case5 owner taken types line rest ho name type hl hm later ih =>
    rw [scanFieldsFirst]
    simp only [hl, if_neg fun hc => hm (List.contains_iff_mem.1 hc), ih]
    rfl
  | case6 owner taken types line rest ho hl hb ih =>
    rw [scanFieldsFirst_neither ho hl, if_pos hb, ih]
  | case7 owner taken types line rest ho hl hb ih =>
    rw [scanFieldsFirst_neither ho hl, if_neg hb, ih]

end Selection

/-! ## Lines -/

namespace LineShape

/-- A line has each shape in one way at most, and not both the shape of a selection and that of a
field. -/
structure Unambiguous (line : Text) : Prop where
  opening :
    Agrees opening? .opening Pattern.openingGroups OpeningLine.print OpeningLine.parts line
  simple : Agrees simple? .simple Pattern.simpleGroups SimpleLine.print SimpleLine.parts line
  aliased : Agrees aliased? .aliased Pattern.aliasedGroups AliasedLine.print AliasedLine.parts line
  exclusive : (opening? line).isSome = true → simple? line = none ∧ aliased? line = none

/--
**The shapes of a selection line are unambiguous and exclusive.**

Each of the three readers accepts a line exactly when the line can be written in its shape. Then it
reads the parts that are written, which are the same for all ways to write the line, and the groups of
the pattern take these parts too. A line that opens a selection names no field, with or without an
alias. So a scan that asks for fields first finds and registers what the scan does.
-/
theorem shapes_unambiguous {line : Text} (hfeed : '\n' ∉ line) :
    Unambiguous line
      ∧ ∀ owner taken types lines,
          Selection.scanFieldsFirst owner taken types lines
            = Selection.scanLines owner taken types lines := by
  refine ⟨⟨agrees_opening hfeed, agrees_simple line, agrees_aliased line, fun h => ?_⟩,
    Selection.scanFieldsFirst_eq⟩
  obtain ⟨o, ho⟩ := Option.isSome_iff_exists.1 h
  exact leaf_shapes_of_opening? ho

/-- Arguments that hold a brace, a colon and an at-sign: `a : b(x: "{:@") @c (if: $d)@e { f`. -/
def crowdedLine : OpeningLine :=
  let none : Gap := ⟨[], .nil⟩
  let blank : Gap := ⟨[' '], .space⟩
  { label? := some ⟨⟨['a'], by decide⟩, blank, blank⟩
    field := ⟨['b'], by decide⟩
    tail :=
      { before := none
        arguments? := some ⟨"x: \"\x7b:@\"".toList, by decide⟩
        directives :=
          [⟨blank, ⟨['c'], by decide⟩, blank, some ⟨"if: $d".toList, by decide⟩⟩,
            ⟨none, ⟨['e'], by decide⟩, none, .none⟩]
        after := blank }
    rest := [' ', 'f'] }

theorem shapes_unambiguous_crowdedLine :
    crowdedLine.print = "a : b(x: \"\x7b:@\") @c (if: $d)@e \x7b f".toList
      ∧ '\n' ∉ crowdedLine.print
      ∧ opening? crowdedLine.print = some ⟨some ['a'], ['b'], [' ', 'f']⟩
      ∧ Pattern.opening.groups? crowdedLine.print
          = some [(1, ['a']), (2, ['b']), (3, [' ', 'f'])]
      ∧ simple? crowdedLine.print = none ∧ aliased? crowdedLine.print = none := by
  have hfeed : '\n' ∉ crowdedLine.print := by decide
  have hline := (shapes_unambiguous hfeed).1
  have hread := hline.opening.reads crowdedLine rfl
  have hgroups := hline.opening.captures
  rw [hread] at hgroups
  exact ⟨by decide, hfeed, hread, hgroups, hline.exclusive (by rw [hread]; rfl)⟩

end LineShape

end GqlScan
