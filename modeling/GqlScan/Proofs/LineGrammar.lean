import GqlScan.Proofs.Literals.Reading
import GqlScan.Proofs.Spelling
import GqlScan.Proofs.TypeBlocks.Reading

/-!
# How the lines of a selection set are written

A line that opens a selection is an alias with its colon, if there is one, a name, arguments and
directives if there are any, a brace and the rest of the line. A line that names a field ends in a
type behind a colon or without one, and a line with an alias ends behind its arguments and
directives; a comma may follow. Blanks are allowed between all parts.

What is read off a line is what is written in it: a reader accepts a line exactly when the line is
written in the shape of the reader, and then it gives the parts that are written. So these parts are
the same for all ways to write one line, although the blanks in it can be shared out in several ways
and arguments may hold braces, colons and at-signs.

Main statements: `opening?_eq_some_iff`, `simple?_eq_some_iff` and `aliased?_eq_some_iff`.
-/

namespace GqlScan.LineShape

open Text Canonical TypeBlocks

/-! ## What is written -/

/-- Arguments between parentheses. They end at the first closing one. -/
structure Arguments where
  content : Text
  unclosed : ')' ∉ content

namespace Arguments

/-- Arguments as they are written. -/
def print (a : Arguments) : Text := '(' :: (a.content ++ [')'])

/-- Arguments as they are written, nothing when there are none. -/
def print? (arguments? : Option Arguments) : Text := arguments?.elim [] print

end Arguments

/-- A directive, with the blanks in front of it and behind its name. -/
structure Directive where
  before : Gap
  name : Name
  between : Gap
  arguments? : Option Arguments

/-- A directive as it is written. -/
def Directive.print (d : Directive) : Text :=
  d.before.1 ++ '@' :: (d.name.1 ++ (d.between.1 ++ Arguments.print? d.arguments?))

/-- The arguments and directives behind a name, with the blanks around them. -/
structure Tail where
  before : Gap
  arguments? : Option Arguments
  directives : List Directive
  after : Gap

/-- Arguments and directives as they are written. -/
def Tail.print (s : Tail) : Text :=
  s.before.1 ++ (Arguments.print? s.arguments? ++ (s.directives.flatMap Directive.print ++ s.after.1))

/-- An alias, with the blanks around its colon. -/
structure Label where
  name : Name
  before : Gap
  after : Gap

namespace Label

/-- An alias and its colon as they are written. -/
def print (l : Label) : Text := l.name.1 ++ (l.before.1 ++ ':' :: l.after.1)

/-- An alias as it is written, nothing when there is none. -/
def print? (label? : Option Label) : Text := label?.elim [] print

end Label

/-- A line that opens a selection. -/
structure OpeningLine where
  label? : Option Label
  field : Name
  tail : Tail
  rest : Text

namespace OpeningLine

/-- The line as it is written. -/
def print (d : OpeningLine) : Text :=
  Label.print? d.label? ++ (d.field.1 ++ (d.tail.print ++ '\x7b' :: d.rest))

/-- The parts of the line that are wanted. -/
def parts (d : OpeningLine) : Opening := ⟨d.label?.map (·.name.1), d.field.1, d.rest⟩

end OpeningLine

/-- The type of a field, with the blanks behind its colon. -/
structure Typing where
  gap : Gap
  type : TypeName

namespace Typing

/-- A colon and a type as they are written. -/
def print (y : Typing) : Text := ':' :: (y.gap.1 ++ y.type.1)

/-- A colon and a type as they are written, nothing when there are none. -/
def print? (typing? : Option Typing) : Text := typing?.elim [] print

end Typing

/-- A comma, or nothing. -/
def comma (b : Bool) : Text := if b then [','] else []

/-- A line that names a field. -/
structure SimpleLine where
  field : Name
  tail : Tail
  typing? : Option Typing
  gap : Gap
  ends : Bool

namespace SimpleLine

/-- The line as it is written. -/
def print (d : SimpleLine) : Text :=
  d.field.1 ++ (d.tail.print ++ (Typing.print? d.typing? ++ (d.gap.1 ++ comma d.ends)))

/-- The parts of the line that are wanted. -/
def parts (d : SimpleLine) : Text × Option Text := (d.field.1, d.typing?.map (·.type.1))

end SimpleLine

/-- A line that names a field under an alias. -/
structure AliasedLine where
  label : Label
  field : Name
  tail : Tail
  ends : Bool

namespace AliasedLine

/-- The line as it is written. -/
def print (d : AliasedLine) : Text :=
  d.label.print ++ (d.field.1 ++ (d.tail.print ++ comma d.ends))

/-- The part of the line that is wanted. -/
def parts (d : AliasedLine) : Text := d.label.name.1

end AliasedLine

/-! ## Reading past arguments and directives -/

theorem skipDirectives_trimStart (t : Text) : skipDirectives (trimStart t) = skipDirectives t := by
  have htrim := trimStart_trimStart t
  cases hat : trimStart t with
  | nil =>
    rw [skipDirectives_of_head (t := t) (by rw [hat]; decide), hat]
    rw [skipDirectives_of_head (by decide)]
    rfl
  | cons c s =>
    rw [hat] at htrim
    by_cases hc : c = '@'
    · subst hc
      cases hn : name? s with
      | none => rw [skipDirectives_of_no_name htrim hn, skipDirectives_of_no_name hat hn]
      | some found => rw [skipDirectives_of_name htrim hn, skipDirectives_of_name hat hn]
    · have hne : ∀ u : Text, some c ≠ some '@' := fun _ he => hc (Option.some.inj he)
      rw [skipDirectives_of_head (t := t) (by rw [hat]; exact hne s), hat,
        skipDirectives_of_head (by rw [htrim]; exact hne s), htrim]

/-- A text with which neither a name nor arguments go on, blanks in front of it aside. -/
def Apart (v : Text) : Prop := ∀ c ∈ (trimStart v).head?, isNameChar c = false ∧ c ≠ '('

/-- A text with which neither a name, nor arguments, nor directives go on: there is nothing in it, or
it starts with a brace, a colon or a comma. -/
def EndsTail (v : Text) : Prop := ∀ c ∈ (trimStart v).head?, c = '\x7b' ∨ c = ':' ∨ c = ','

theorem EndsTail.apart {v : Text} (h : EndsTail v) : Apart v := by
  intro c hc
  rcases h c hc with rfl | rfl | rfl <;> decide

theorem EndsTail.head_ne {v : Text} (h : EndsTail v) : (trimStart v).head? ≠ some '@' := by
  intro he
  rcases h '@' he with hc | hc | hc <;> exact absurd hc (by decide)

theorem endsTail_nil : EndsTail [] := fun c hc => by cases hc

theorem endsTail_cons {c : Char} (hc : c = '\x7b' ∨ c = ':' ∨ c = ',') (v : Text) :
    EndsTail (c :: v) := by
  have hblank : isBlank c = false := by
    rcases hc with rfl | rfl | rfl <;> decide
  intro d hd
  rw [trimStart_of_stops (.cons hblank v)] at hd
  rw [← Option.some.inj hd]
  exact hc

theorem EndsTail.blanks_append {b v : Text} (h : EndsTail v) (hb : Blanks b) :
    EndsTail (b ++ v) := by
  unfold EndsTail
  rw [trimStart_blanks_append hb]
  exact h

theorem endsTail_comma (b : Bool) : EndsTail (comma b) := by
  cases b with
  | false => exact endsTail_nil
  | true => exact endsTail_cons (.inr (.inr rfl)) []

/-- A name ends in front of such a text, blanks and arguments included. -/
theorem Apart.stops {v : Text} (h : Apart v) (gap : Gap) (arguments? : Option Arguments) :
    Stops isNameChar (gap.1 ++ (Arguments.print? arguments? ++ v)) := by
  have hblank : ∀ c, isNameChar c = true → isBlank c = false :=
    fun c => isBlank_eq_false_of_isNameChar
  refine stops_blanks_append hblank gap.2 ?_
  cases arguments? with
  | none => exact StopsPastBlanks.stops (fun c hc => (h c hc).1) hblank
  | some a => exact .cons (by decide) _

/-- Arguments are skipped as a whole. -/
theorem skipDirectives_skipArguments {v : Text} (h : Apart v) (gap : Gap)
    (arguments? : Option Arguments) :
    skipDirectives (skipArguments (trimStart (gap.1 ++ (Arguments.print? arguments? ++ v))))
      = skipDirectives v := by
  rw [trimStart_blanks_append gap.2]
  cases arguments? with
  | none =>
    have hhead : (trimStart v).head? ≠ some '(' := fun he => (h '(' he).2 rfl
    exact (congrArg _ (skipArguments_of_head hhead)).trans (skipDirectives_trimStart v)
  | some a =>
    have hprint : Arguments.print? (some a) ++ v = '(' :: (a.content ++ ')' :: v) := by
      change '(' :: (a.content ++ [')']) ++ v = _
      rw [List.cons_append, List.append_assoc]
      rfl
    have hmem : ')' ∈ a.content ++ ')' :: v := List.mem_append_right _ List.mem_cons_self
    rw [hprint, trimStart_of_stops (.cons (p := isBlank) (by decide) _), skipArguments_of_mem hmem,
      after_append_of_not_mem a.unclosed]
    rfl

theorem Directive.print_append (d : Directive) (v : Text) :
    d.print ++ v
      = d.before.1 ++ '@' :: (d.name.1 ++ (d.between.1 ++ (Arguments.print? d.arguments? ++ v))) := by
  unfold print
  simp only [List.append_assoc, List.cons_append]

theorem Directive.trimStart_print_append (d : Directive) (v : Text) :
    trimStart (d.print ++ v)
      = '@' :: (d.name.1 ++ (d.between.1 ++ (Arguments.print? d.arguments? ++ v))) := by
  rw [d.print_append, trimStart_blanks_append d.before.2,
    trimStart_of_stops (.cons (p := isBlank) (by decide) _)]

/-- Directives start with an at-sign, if there are any. -/
theorem head_directives_append {ds : List Directive} {v : Text} {c : Char}
    (hc : c ∈ (trimStart (ds.flatMap Directive.print ++ v)).head?) :
    c = '@' ∨ c ∈ (trimStart v).head? := by
  cases ds with
  | nil => exact .inr hc
  | cons d ds =>
    rw [List.flatMap_cons, List.append_assoc, d.trimStart_print_append] at hc
    exact .inl (Option.some.inj hc).symm

theorem Apart.directives_append {v : Text} (h : Apart v) (ds : List Directive) :
    Apart (ds.flatMap Directive.print ++ v) := by
  intro c hc
  rcases head_directives_append hc with rfl | hv
  · decide
  · exact h c hv

theorem skipDirectives_print_append {v : Text} (h : EndsTail v) (ds : List Directive) :
    skipDirectives (ds.flatMap Directive.print ++ v) = trimStart v := by
  induction ds with
  | nil => exact skipDirectives_of_head h.head_ne
  | cons d ds ih =>
    have hrest := h.apart.directives_append ds
    have hname : name? (d.name.1 ++ (d.between.1 ++ (Arguments.print? d.arguments?
          ++ (ds.flatMap Directive.print ++ v))))
        = some (d.name.1, d.between.1 ++ (Arguments.print? d.arguments?
          ++ (ds.flatMap Directive.print ++ v))) := by
      rw [name?_append (hrest.stops d.between d.arguments?), name?_of_letters d.name.2.1 d.name.2.2]
      rfl
    rw [List.flatMap_cons, List.append_assoc,
      skipDirectives_of_name (d.trimStart_print_append _) hname,
      skipDirectives_skipArguments hrest, ih]

namespace Tail

variable (s : Tail) {v : Text}

theorem print_append (v : Text) :
    s.print ++ v = s.before.1 ++ (Arguments.print? s.arguments?
      ++ (s.directives.flatMap Directive.print ++ (s.after.1 ++ v))) := by
  unfold print
  simp only [List.append_assoc]

/-- **Arguments and directives are skipped as they are written.** -/
theorem skipTail_print_append (h : EndsTail v) : skipTail (s.print ++ v) = trimStart v := by
  have hv := h.blanks_append s.after.2
  unfold skipTail
  rw [s.print_append, skipDirectives_skipArguments (hv.apart.directives_append _),
    skipDirectives_print_append hv, trimStart_blanks_append s.after.2]

theorem stops_print_append (h : EndsTail v) : Stops isNameChar (s.print ++ v) := by
  have hv := h.blanks_append s.after.2
  rw [s.print_append]
  exact (hv.apart.directives_append _).stops _ _

/-- Arguments and directives start with a parenthesis or an at-sign, if there are any. -/
theorem head_print_append {c : Char} (hc : c ∈ (trimStart (s.print ++ v)).head?) :
    c = '(' ∨ c = '@' ∨ c ∈ (trimStart v).head? := by
  rw [s.print_append, trimStart_blanks_append s.before.2] at hc
  cases harguments : s.arguments? with
  | some a =>
    rw [harguments] at hc
    exact .inl (Option.some.inj hc).symm
  | none =>
    rw [harguments] at hc
    refine .inr ((head_directives_append hc).imp_right fun hv => ?_)
    rwa [trimStart_blanks_append s.after.2] at hv

end Tail

/-! ## What is written is read -/

theorem trimStart_comma (b : Bool) : trimStart (comma b) = comma b := by
  cases b <;> rfl

theorem isLineEnd_comma (b : Bool) : isLineEnd (comma b) = true := by
  cases b <;> rfl

/-- The end of a line is blank but for a comma. -/
theorem isLineEnd_iff {t : Text} :
    isLineEnd t = true ↔ ∃ (gap : Gap) (b : Bool), gap.1 ++ comma b = t := by
  unfold isLineEnd
  rw [Bool.or_eq_true, beq_iff_eq, beq_iff_eq]
  constructor
  · obtain ⟨gap, ht, hgap⟩ := exists_trimStart_append t
    rintro (h | h)
    · exact ⟨⟨gap, hgap⟩, false, by rw [ht, h]; rfl⟩
    · exact ⟨⟨gap, hgap⟩, true, by rw [ht, h]; rfl⟩
  · rintro ⟨gap, b, rfl⟩
    rw [trimStart_blanks_append gap.2, trimStart_comma]
    cases b with
    | false => exact .inl rfl
    | true => exact .inr rfl

theorem name?_field_append (n : Name) (s : Tail) {v : Text} (h : EndsTail v) :
    name? (n.1 ++ (s.print ++ v)) = some (n.1, s.print ++ v) := by
  rw [name?_append (s.stops_print_append h), name?_of_letters n.2.1 n.2.2]
  rfl

theorem trimStart_gap_name_append (gap : Gap) (n : Name) (v : Text) :
    trimStart (gap.1 ++ (n.1 ++ v)) = n.1 ++ v := by
  have hstops : Stops isBlank n.1 := fun c hc =>
    isBlank_eq_false_of_isNameChar (n.2.2 c (List.mem_of_mem_head? hc))
  rw [trimStart_blanks_append gap.2, trimStart_of_stops (hstops.append n.2.1 v)]

theorem trimStart_gap_colon_append (gap : Gap) (v : Text) :
    trimStart (gap.1 ++ ':' :: v) = ':' :: v := by
  rw [trimStart_blanks_append gap.2, trimStart_of_stops (.cons (p := isBlank) (by decide) _)]

theorem name?_label_append (l : Label) (v : Text) :
    name? (l.print ++ v) = some (l.name.1, l.before.1 ++ ':' :: (l.after.1 ++ v)) := by
  have hprint : l.print ++ v = l.name.1 ++ (l.before.1 ++ ':' :: (l.after.1 ++ v)) := by
    unfold Label.print
    simp only [List.append_assoc, List.cons_append]
  have hstops : Stops isNameChar (l.before.1 ++ ':' :: (l.after.1 ++ v)) :=
    stops_blanks_append (fun c => isBlank_eq_false_of_isNameChar) l.before.2 (.cons (by decide) _)
  rw [hprint, name?_append hstops, name?_of_letters l.name.2.1 l.name.2.2]
  rfl

theorem openingTail?_eq_some_iff {aliasName? : Option Text} {field more : Text} {o : Opening} :
    openingTail? aliasName? field more = some o
      ↔ ∃ rest, skipTail more = '\x7b' :: rest ∧ '\n' ∉ rest ∧ o = ⟨aliasName?, field, rest⟩ := by
  unfold openingTail?
  constructor
  · intro h
    split at h
    · rename_i rest hrest
      split at h
      · cases h
      · rename_i hfeed
        cases h
        exact ⟨rest, hrest, hfeed, rfl⟩
    · cases h
  · rintro ⟨rest, hrest, hfeed, rfl⟩
    rw [hrest]
    exact if_neg hfeed

theorem OpeningLine.rest_suffix (d : OpeningLine) : d.rest <:+ d.print :=
  ((List.suffix_cons _ _).trans (List.suffix_append _ _)).trans
    ((List.suffix_append _ _).trans (List.suffix_append _ _))

theorem opening?_print (d : OpeningLine) (h : '\n' ∉ d.rest) : opening? d.print = some d.parts := by
  have hbrace : EndsTail ('\x7b' :: d.rest) := endsTail_cons (.inl rfl) _
  have hhead : trimStart ('\x7b' :: d.rest) = '\x7b' :: d.rest :=
    trimStart_of_stops (.cons (p := isBlank) (by decide) _)
  have hfield := name?_field_append d.field d.tail hbrace
  have htail : ∀ aliasName?,
      openingTail? aliasName? d.field.1 (d.tail.print ++ '\x7b' :: d.rest)
        = some ⟨aliasName?, d.field.1, d.rest⟩ := fun aliasName? =>
    openingTail?_eq_some_iff.2 ⟨d.rest, (d.tail.skipTail_print_append hbrace).trans hhead, h, rfl⟩
  unfold OpeningLine.print OpeningLine.parts
  cases d.label? with
  | none =>
    have hcolon : (trimStart (d.tail.print ++ '\x7b' :: d.rest)).head? ≠ some ':' := by
      intro he
      rcases d.tail.head_print_append he with hc | hc | hc
      · exact absurd hc (by decide)
      · exact absurd hc (by decide)
      · rw [hhead] at hc
        exact absurd (Option.some.inj hc) (by decide)
    exact (opening?_of_no_alias hfield hcolon).trans (htail none)
  | some l =>
    change opening? (l.print ++ _) = _
    rw [opening?_of_alias (name?_label_append l _) (trimStart_gap_colon_append _ _),
      trimStart_gap_name_append, hfield, Option.bind_some, htail]
    rfl

theorem simple?_print (d : SimpleLine) : simple? d.print = some d.parts := by
  unfold SimpleLine.print SimpleLine.parts
  have hend : EndsTail (d.gap.1 ++ comma d.ends) := (endsTail_comma d.ends).blanks_append d.gap.2
  have hline : isLineEnd (d.gap.1 ++ comma d.ends) = true := isLineEnd_iff.2 ⟨d.gap, d.ends, rfl⟩
  cases d.typing? with
  | none =>
    change simple? (d.field.1 ++ (d.tail.print ++ (d.gap.1 ++ comma d.ends))) = _
    have htail := d.tail.skipTail_print_append hend
    have htrim : trimStart (d.gap.1 ++ comma d.ends) = comma d.ends := by
      rw [trimStart_blanks_append d.gap.2, trimStart_comma]
    have hcolon : (comma d.ends).head? ≠ some ':' := by
      cases d.ends <;> decide
    rw [htrim] at htail
    rw [simple?_of_no_colon (name?_field_append _ _ hend) (by rw [htail]; exact hcolon), htail,
      if_pos (isLineEnd_comma d.ends)]
    rfl
  | some y =>
    have hprint : Typing.print? (some y) ++ (d.gap.1 ++ comma d.ends)
        = ':' :: (y.gap.1 ++ (y.type.1 ++ (d.gap.1 ++ comma d.ends))) := by
      change ':' :: (y.gap.1 ++ y.type.1) ++ _ = _
      rw [List.cons_append, List.append_assoc]
    have hcolon : EndsTail (':' :: (y.gap.1 ++ (y.type.1 ++ (d.gap.1 ++ comma d.ends)))) :=
      endsTail_cons (.inr (.inl rfl)) _
    have htail := d.tail.skipTail_print_append hcolon
    rw [trimStart_of_stops (.cons (p := isBlank) (by decide) _)] at htail
    have hblank : Stops isBlank y.type.1 := fun c hc =>
      isBlank_eq_false_of_isTypeChar (y.type.2.2 c (List.mem_of_mem_head? hc))
    have htype : Stops isTypeChar (d.gap.1 ++ comma d.ends) := by
      refine stops_blanks_append (fun c => isBlank_eq_false_of_isTypeChar) d.gap.2 ?_
      cases d.ends with
      | false => exact .nil _
      | true => exact .cons (by decide) _
    rw [hprint, simple?_of_colon (name?_field_append _ _ hcolon) htail,
      trimStart_blanks_append y.gap.2, trimStart_of_stops (hblank.append y.type.2.1 _),
      takeWhile_append_of_stops htype, dropWhile_append_of_stops htype,
      List.takeWhile_eq_self_iff.2 y.type.2.2, List.dropWhile_eq_nil_iff.2 y.type.2.2,
      List.nil_append, if_pos ⟨y.type.2.1, hline⟩]
    rfl

theorem aliased?_print (d : AliasedLine) : aliased? d.print = some d.parts := by
  unfold AliasedLine.print AliasedLine.parts
  have hend := endsTail_comma d.ends
  have htail : skipTail (d.tail.print ++ comma d.ends) = comma d.ends :=
    (d.tail.skipTail_print_append hend).trans (trimStart_comma d.ends)
  rw [aliased?_of_alias (name?_label_append d.label _) (trimStart_gap_colon_append _ _),
    trimStart_gap_name_append, name?_field_append d.field d.tail hend, Option.bind_some, htail,
    if_pos (isLineEnd_comma d.ends)]

/-! ## What is read is written -/

theorem exists_gap (t : Text) : ∃ gap : Gap, gap.1 ++ trimStart t = t := by
  obtain ⟨gap, ht, hgap⟩ := exists_trimStart_append t
  exact ⟨⟨gap, hgap⟩, ht.symm⟩

theorem exists_arguments (t : Text) :
    ∃ arguments?, Arguments.print? arguments? ++ skipArguments t = t := by
  by_cases hhead : t.head? = some '('
  · obtain ⟨rest, rfl⟩ := List.head?_eq_some_iff.1 hhead
    by_cases hclose : ')' ∈ rest
    · have hcontent : ')' ∉ before ')' rest := fun hm => absurd (List.mem_takeWhile_imp hm) (by simp)
      refine ⟨some ⟨before ')' rest, hcontent⟩, ?_⟩
      rw [skipArguments_of_mem hclose]
      change '(' :: (before ')' rest ++ [')']) ++ after ')' rest = '(' :: rest
      rw [List.cons_append, List.append_assoc, List.singleton_append, before_append_after hclose]
    · refine ⟨none, ?_⟩
      rw [skipArguments_of_not_mem fun hm => ?_]
      · rfl
      · exact hclose ((List.mem_cons.1 hm).resolve_left (by decide))
  · exact ⟨none, congrArg ([] ++ ·) (skipArguments_of_head hhead)⟩

theorem exists_directives (t : Text) :
    ∃ (ds : List Directive) (gap : Gap),
      ds.flatMap Directive.print ++ (gap.1 ++ skipDirectives t) = t := by
  fun_induction skipDirectives t with
  | case1 t rest hat name more hn _ ih =>
    obtain ⟨before, hbefore⟩ := exists_gap t
    obtain ⟨between, hbetween⟩ := exists_gap more
    obtain ⟨arguments?, harguments⟩ := exists_arguments (trimStart more)
    obtain ⟨ds, gap, hrest⟩ := ih
    refine ⟨⟨before, ⟨name, isName_of_name? hn⟩, between, arguments?⟩ :: ds, gap, ?_⟩
    rw [List.flatMap_cons, List.append_assoc, Directive.print_append, hrest, harguments, hbetween,
      append_of_name? hn, ← hat, hbefore]
  | case2 t rest hat hn =>
    obtain ⟨gap, hgap⟩ := exists_gap t
    exact ⟨[], gap, by rw [← hat, hgap]; rfl⟩
  | case3 t =>
    obtain ⟨gap, hgap⟩ := exists_gap t
    exact ⟨[], gap, hgap⟩

/-- The blanks behind directives are skipped with them. -/
theorem trimStart_skipTail (t : Text) : trimStart (skipTail t) = skipTail t := by
  unfold skipTail
  fun_induction skipDirectives (skipArguments (trimStart t)) with
  | case1 _ _ _ _ _ _ _ ih => exact ih
  | case2 => exact trimStart_of_stops (.cons (p := isBlank) (by decide) _)
  | case3 => exact trimStart_trimStart _

/-- What is skipped behind a name are arguments and directives. -/
theorem exists_tail (t : Text) : ∃ s : Tail, s.print ++ skipTail t = t := by
  obtain ⟨before, hbefore⟩ := exists_gap t
  obtain ⟨arguments?, harguments⟩ := exists_arguments (trimStart t)
  obtain ⟨ds, gap, hds⟩ := exists_directives (skipArguments (trimStart t))
  refine ⟨⟨before, arguments?, ds, gap⟩, ?_⟩
  unfold skipTail
  rw [Tail.print_append, hds, harguments, hbefore]

section

variable {line name more rest : Text}

/-- A colon behind a name makes it an alias. -/
theorem exists_label (hn : name? line = some (name, more)) (hcolon : trimStart more = ':' :: rest) :
    ∃ l : Label, l.name.1 = name ∧ l.print ++ trimStart rest = line := by
  obtain ⟨before, hbefore⟩ := exists_gap more
  obtain ⟨after, hafter⟩ := exists_gap rest
  refine ⟨⟨⟨name, isName_of_name? hn⟩, before, after⟩, rfl, ?_⟩
  unfold Label.print
  simp only [List.append_assoc, List.cons_append]
  rw [hafter, ← hcolon, hbefore, append_of_name? hn]

/-- How a line that opens a selection is read, without an alias and with one. -/
theorem opening?_cases {o : Opening} (h : opening? line = some o) :
    (∃ first more after, name? line = some (first, more) ∧ (trimStart more).head? ≠ some ':'
        ∧ skipTail more = '\x7b' :: after ∧ '\n' ∉ after ∧ o = ⟨none, first, after⟩)
      ∨ ∃ first more rest field more' after, name? line = some (first, more)
        ∧ trimStart more = ':' :: rest ∧ name? (trimStart rest) = some (field, more')
        ∧ skipTail more' = '\x7b' :: after ∧ '\n' ∉ after ∧ o = ⟨some first, field, after⟩ := by
  obtain ⟨⟨first, more⟩, hn, -⟩ := Option.bind_eq_some_iff.1 h
  by_cases hhead : (trimStart more).head? = some ':'
  · obtain ⟨rest, hcolon⟩ := List.head?_eq_some_iff.1 hhead
    rw [opening?_of_alias hn hcolon] at h
    obtain ⟨⟨field, more'⟩, hfield, h⟩ := Option.bind_eq_some_iff.1 h
    obtain ⟨after, htail, hfeed, rfl⟩ := openingTail?_eq_some_iff.1 h
    exact .inr ⟨first, more, rest, field, more', after, hn, hcolon, hfield, htail, hfeed, rfl⟩
  · rw [opening?_of_no_alias hn hhead] at h
    obtain ⟨after, htail, hfeed, rfl⟩ := openingTail?_eq_some_iff.1 h
    exact .inl ⟨first, more, after, hn, hhead, htail, hfeed, rfl⟩

theorem exists_of_opening? {o : Opening} (h : opening? line = some o) :
    ∃ d : OpeningLine, d.print = line ∧ d.parts = o := by
  rcases opening?_cases h with ⟨first, more, after, hn, -, htail, -, rfl⟩
    | ⟨first, more, rest, field, more', after, hn, hcolon, hfield, htail, -, rfl⟩
  · obtain ⟨s, hs⟩ := exists_tail more
    refine ⟨⟨none, ⟨first, isName_of_name? hn⟩, s, after⟩, ?_, rfl⟩
    change first ++ (s.print ++ '\x7b' :: after) = line
    rw [← htail, hs, append_of_name? hn]
  · obtain ⟨l, rfl, hl⟩ := exists_label hn hcolon
    obtain ⟨s, hs⟩ := exists_tail more'
    refine ⟨⟨some l, ⟨field, isName_of_name? hfield⟩, s, after⟩, ?_, rfl⟩
    change l.print ++ (field ++ (s.print ++ '\x7b' :: after)) = line
    rw [← htail, hs, append_of_name? hfield, hl]

theorem exists_of_simple? {parts : Text × Option Text} (h : simple? line = some parts) :
    ∃ d : SimpleLine, d.print = line ∧ d.parts = parts := by
  obtain ⟨⟨field, more⟩, hn, -⟩ := Option.bind_eq_some_iff.1 h
  obtain ⟨s, hs⟩ := exists_tail more
  by_cases hhead : (skipTail more).head? = some ':'
  · obtain ⟨rest, hcolon⟩ := List.head?_eq_some_iff.1 hhead
    rw [simple?_of_colon hn hcolon] at h
    split at h
    · rename_i htype
      cases h
      obtain ⟨between, hbetween⟩ := exists_gap rest
      obtain ⟨gap, ends, hend⟩ := isLineEnd_iff.1 htype.2
      have hspelled : IsTypeName ((trimStart rest).takeWhile isTypeChar) :=
        ⟨htype.1, fun c hc => List.mem_takeWhile_imp hc⟩
      refine ⟨⟨⟨field, isName_of_name? hn⟩, s, some ⟨between, ⟨_, hspelled⟩⟩, gap, ends⟩, ?_, rfl⟩
      change field ++ (s.print ++ (':' :: (between.1 ++ (trimStart rest).takeWhile isTypeChar)
        ++ (gap.1 ++ comma ends))) = line
      rw [hend, List.cons_append, List.append_assoc, List.takeWhile_append_dropWhile, hbetween,
        ← hcolon, hs, append_of_name? hn]
    · cases h
  · rw [simple?_of_no_colon hn hhead] at h
    split at h
    · rename_i hend
      cases h
      obtain ⟨gap, ends, hend⟩ := isLineEnd_iff.1 hend
      refine ⟨⟨⟨field, isName_of_name? hn⟩, s, none, gap, ends⟩, ?_, rfl⟩
      change field ++ (s.print ++ ([] ++ (gap.1 ++ comma ends))) = line
      rw [List.nil_append, hend, hs, append_of_name? hn]
    · cases h

theorem exists_of_aliased? {found : Text} (h : aliased? line = some found) :
    ∃ d : AliasedLine, d.print = line ∧ d.parts = found := by
  obtain ⟨⟨first, more⟩, hn, -⟩ := Option.bind_eq_some_iff.1 h
  by_cases hhead : (trimStart more).head? = some ':'
  · obtain ⟨rest, hcolon⟩ := List.head?_eq_some_iff.1 hhead
    rw [aliased?_of_alias hn hcolon] at h
    obtain ⟨⟨field, more'⟩, hfield, h⟩ := Option.bind_eq_some_iff.1 h
    split at h
    · rename_i hend
      cases h
      obtain ⟨l, hname, hl⟩ := exists_label hn hcolon
      obtain ⟨s, hs⟩ := exists_tail more'
      obtain ⟨gap, ends, hend⟩ := isLineEnd_iff.1 hend
      have hcomma : comma ends = skipTail more' := by
        have htrim := trimStart_skipTail more'
        rwa [← hend, trimStart_blanks_append gap.2, trimStart_comma, hend] at htrim
      refine ⟨⟨l, ⟨field, isName_of_name? hfield⟩, s, ends⟩, ?_, hname⟩
      change l.print ++ (field ++ (s.print ++ comma ends)) = line
      rw [hcomma, hs, append_of_name? hfield, hl]
    · cases h
  · rw [aliased?_of_no_alias hn hhead] at h
    cases h

/-- **A line opens a selection exactly when it is written so**, whatever its parts hold. -/
theorem opening?_eq_some_iff (hfeed : '\n' ∉ line) {o : Opening} :
    opening? line = some o ↔ ∃ d : OpeningLine, d.print = line ∧ d.parts = o := by
  refine ⟨exists_of_opening?, ?_⟩
  rintro ⟨d, rfl, rfl⟩
  exact opening?_print d fun hm => hfeed (d.rest_suffix.subset hm)

theorem simple?_eq_some_iff {parts : Text × Option Text} :
    simple? line = some parts ↔ ∃ d : SimpleLine, d.print = line ∧ d.parts = parts := by
  refine ⟨exists_of_simple?, ?_⟩
  rintro ⟨d, rfl, rfl⟩
  exact simple?_print d

theorem aliased?_eq_some_iff {found : Text} :
    aliased? line = some found ↔ ∃ d : AliasedLine, d.print = line ∧ d.parts = found := by
  refine ⟨exists_of_aliased?, ?_⟩
  rintro ⟨d, rfl, rfl⟩
  exact aliased?_print d

end

end GqlScan.LineShape
