import GqlScan.Proofs.Spelling
import GqlScan.Proofs.TypeBlocks.Reading

/-!
# Directives behind the fields of a type

A field of a type is declared by its name, arguments if it has any, a colon and its type, and behind
the type there may be directives. The arguments of the field are skipped as a whole. Those of a
directive are not: fields are looked for everywhere in a line, and behind the type this means in the
arguments of each directive. So what stands there as a word, a colon and the start of a type, such as
a key with a word for its value, is read as a field.

Main statements: `fieldsIn_print`, `fieldsIn_eq_nil_iff` for a text without closing parenthesis, and
`fieldsIn_print_iff`.
-/

namespace GqlScan

open Text Canonical TypeBlocks

/-! ## Reading past a word -/

namespace Schema

/-- No field starts in a word behind which no type is read. -/
theorem fieldsIn_letters_append {n w : Text} (hn : ∀ c ∈ n, isNameChar c = true)
    (hw : Stops isNameChar w) (h : typed? (LineShape.skipArguments (trimStart w)) = none) :
    fieldsIn (n ++ w) = fieldsIn w := by
  induction n with
  | nil => rfl
  | cons c n ih =>
    have hname : name? (c :: (n ++ w)) = some (c :: n, w) := by
      rw [← List.cons_append, name?_append hw, name?_of_letters (List.cons_ne_nil c n) hn]
      rfl
    have hnone : field? (c :: (n ++ w)) = none := by
      rw [field?_of_name hname, h]
      rfl
    rw [List.cons_append, fieldsIn_cons_of_none hnone]
    exact ih fun d hd => hn d (List.mem_cons_of_mem c hd)

end Schema

/-! ## Declarations -/

namespace Declared

open Schema

/-- Arguments and the blanks in front of them. They end at the first closing parenthesis. -/
structure Arguments where
  gap : Gap
  content : Text
  unclosed : ')' ∉ content

namespace Arguments

/-- Arguments as they are written. -/
def print (a : Arguments) : Text := a.gap.1 ++ '(' :: (a.content ++ [')'])

/-- Arguments as they are written, nothing when there are none. -/
def print? (arguments? : Option Arguments) : Text := arguments?.elim [] print

variable (a : Arguments)

theorem print_append (v : Text) : a.print ++ v = a.gap.1 ++ '(' :: (a.content ++ ')' :: v) := by
  rw [print, List.append_assoc, List.cons_append, List.append_assoc]
  rfl

theorem stops_print_append {p : Char → Bool} (hblank : ∀ c, p c = true → isBlank c = false)
    (hopen : p '(' = false) (v : Text) : Stops p (a.print ++ v) := by
  rw [print_append]
  exact stops_blanks_append hblank a.gap.2 (.cons hopen _)

/-- Arguments are skipped as a whole. -/
theorem skipArguments_print_append (v : Text) :
    LineShape.skipArguments (trimStart (a.print ++ v)) = v := by
  have hmem : ')' ∈ a.content ++ ')' :: v := List.mem_append_right _ List.mem_cons_self
  rw [print_append, trimStart_blanks_append a.gap.2,
    trimStart_of_stops (.cons (p := isBlank) (by decide) _), LineShape.skipArguments_of_mem hmem,
    after_append_of_not_mem a.unclosed]
  rfl

end Arguments

/-- A directive and the blanks in front of it. -/
structure Directive where
  gap : Gap
  name : Name
  arguments? : Option Arguments

namespace Directive

/-- A directive as it is written. -/
def print (d : Directive) : Text :=
  d.gap.1 ++ '@' :: (d.name.1 ++ Arguments.print? d.arguments?)

/-- The fields that are found in the arguments of a directive. -/
def misread (d : Directive) : List Field := d.arguments?.elim [] fun a => fieldsIn a.content

end Directive

/-- The declaration of a field, with the directives behind it. -/
structure Declaration where
  name : Name
  arguments? : Option Arguments
  beforeColon : Gap
  afterColon : Gap
  type : Reference
  directives : List Directive

namespace Declaration

/-- The colon and the type of a declaration. -/
def typing (d : Declaration) : Text := d.beforeColon.1 ++ ':' :: (d.afterColon.1 ++ d.type.1)

/-- The directives of a declaration as they are written. -/
def tail (d : Declaration) : Text := d.directives.flatMap Directive.print

/-- A declaration as it is written. -/
def print (d : Declaration) : Text :=
  d.name.1 ++ (Arguments.print? d.arguments? ++ (d.typing ++ d.tail))

/-- The field that is declared. -/
def field (d : Declaration) : Field := ⟨d.name.1, d.type.1, []⟩

end Declaration

/-! ## Directives -/

/-- A text in which the next thing is a directive, if there is anything. -/
def AtDirective (v : Text) : Prop := ∀ c ∈ (trimStart v).head?, c = '@'

namespace AtDirective

variable {v : Text} (h : AtDirective v)

include h

theorem head_ne {c : Char} (hc : c ≠ '@') : (trimStart v).head? ≠ some c := fun he => hc (h c he)

theorem stops {p : Char → Bool} (hblank : ∀ c, p c = true → isBlank c = false)
    (hat : p '@' = false) : Stops p v := by
  refine StopsPastBlanks.stops (fun c hc => ?_) hblank
  rw [h c hc]
  exact hat

theorem typed?_eq_none : typed? v = none := typed?_of_no_colon (h.head_ne (by decide))

/-- Behind a word in front of directives there is no type. -/
theorem typed?_skipArguments : typed? (LineShape.skipArguments (trimStart v)) = none := by
  rw [LineShape.skipArguments_of_head (h.head_ne (by decide))]
  refine typed?_of_no_colon ?_
  rw [trimStart_trimStart]
  exact h.head_ne (by decide)

/-- The end of arguments in front of directives ends all that is being read. -/
theorem endsField_cons : EndsField (')' :: v) := by
  have hhead : trimStart (')' :: v) = ')' :: v :=
    trimStart_of_stops (.cons (p := isBlank) (by decide) v)
  refine ⟨⟨.cons (by decide) (by decide) v, ?_⟩, ?_, fun _ => h.typed?_eq_none⟩
  · rw [hhead, List.head?_cons]
    decide
  · rw [hhead, List.head?_cons]
    decide

end AtDirective

theorem atDirective_directives (ds : List Directive) : AtDirective (ds.flatMap Directive.print) := by
  cases ds with
  | nil => exact fun c hc => by cases hc
  | cons d ds =>
    intro c hc
    rw [List.flatMap_cons, Directive.print, List.append_assoc, trimStart_blanks_append d.gap.2,
      List.cons_append, trimStart_of_stops (.cons (p := isBlank) (by decide) _)] at hc
    exact (Option.some.inj hc).symm

/-- Behind the name of a directive the fields of its arguments are found, and none that goes past
their end. -/
theorem fieldsIn_arguments (a : Arguments) {v : Text} (h : AtDirective v) :
    fieldsIn (a.print ++ v) = fieldsIn a.content ++ fieldsIn v := by
  rw [a.print_append, fieldsIn_blanks_append a.gap.2, fieldsIn_cons_of_stops (by decide),
    fieldsIn_append h.endsField_cons, fieldsIn_cons_of_stops (by decide)]

/-- A directive holds the fields of its arguments. -/
theorem fieldsIn_directive (d : Directive) {v : Text} (h : AtDirective v) :
    fieldsIn (d.print ++ v) = d.misread ++ fieldsIn v := by
  have hfront : fieldsIn (d.print ++ v)
      = fieldsIn (d.name.1 ++ (Arguments.print? d.arguments? ++ v)) := by
    rw [Directive.print, List.append_assoc, fieldsIn_blanks_append d.gap.2, List.cons_append,
      fieldsIn_cons_of_stops (by decide), List.append_assoc]
  rw [hfront]
  unfold Directive.misread
  cases d.arguments? with
  | none =>
    have hstops : Stops isNameChar v :=
      h.stops (fun c => isBlank_eq_false_of_isNameChar) (by decide)
    exact fieldsIn_letters_append d.name.2.2 hstops h.typed?_skipArguments
  | some a =>
    have hstops : Stops isNameChar (a.print ++ v) :=
      a.stops_print_append (fun c => isBlank_eq_false_of_isNameChar) (by decide) v
    have hnone : typed? (LineShape.skipArguments (trimStart (a.print ++ v))) = none := by
      rw [a.skipArguments_print_append]
      exact h.typed?_eq_none
    exact (fieldsIn_letters_append d.name.2.2 hstops hnone).trans (fieldsIn_arguments a h)

/-- Directives one after the other hold the fields of their arguments. -/
theorem fieldsIn_directives (ds : List Directive) :
    fieldsIn (ds.flatMap Directive.print) = ds.flatMap Directive.misread := by
  induction ds with
  | nil => exact fieldsIn_nil
  | cons d ds ih =>
    rw [List.flatMap_cons, List.flatMap_cons, fieldsIn_directive d (atDirective_directives ds), ih]

/-! ## The declared field -/

namespace Declaration

variable (d : Declaration)

theorem typing_append (v : Text) :
    d.typing ++ v = d.beforeColon.1 ++ ':' :: (d.afterColon.1 ++ (d.type.1 ++ v)) := by
  rw [typing, List.append_assoc, List.cons_append, List.append_assoc]

theorem trimStart_typing_append (v : Text) :
    trimStart (d.typing ++ v) = ':' :: (d.afterColon.1 ++ (d.type.1 ++ v)) := by
  rw [typing_append, trimStart_blanks_append d.beforeColon.2,
    trimStart_of_stops (.cons (p := isBlank) (by decide) _)]

/-- The type is read behind the arguments of the field. -/
theorem typed?_typing_append {v : Text} (hv : Stops isTypeChar v) :
    typed? (LineShape.skipArguments (trimStart (Arguments.print? d.arguments? ++ (d.typing ++ v))))
      = some (d.type.1, v) := by
  have htype : Stops isBlank (d.type.1 ++ v) :=
    (Reference.stops d.type).append (Reference.ne_nil d.type) v
  have htyped : typed? (d.typing ++ v) = some (d.type.1, v) := by
    rw [typed?_of_colon (d.trimStart_typing_append v), trimStart_blanks_append d.afterColon.2,
      trimStart_of_stops htype, Reference.type?_eq d.type hv]
  cases d.arguments? with
  | none =>
    have hhead : (trimStart (d.typing ++ v)).head? ≠ some '(' := by
      rw [trimStart_typing_append, List.head?_cons]
      decide
    change typed? (LineShape.skipArguments (trimStart (d.typing ++ v))) = _
    rw [LineShape.skipArguments_of_head hhead, typed?_of_colon
      ((trimStart_trimStart _).trans (d.trimStart_typing_append v)),
      ← typed?_of_colon (d.trimStart_typing_append v), htyped]
  | some a =>
    exact (congrArg typed? (a.skipArguments_print_append (d.typing ++ v))).trans htyped

theorem stops_behind_name (v : Text) :
    Stops isNameChar (Arguments.print? d.arguments? ++ (d.typing ++ v)) := by
  have hblank : ∀ c, isNameChar c = true → isBlank c = false :=
    fun c => isBlank_eq_false_of_isNameChar
  cases d.arguments? with
  | none =>
    rw [typing_append]
    exact stops_blanks_append hblank d.beforeColon.2 (.cons (by decide) _)
  | some a => exact a.stops_print_append hblank (by decide) _

theorem field?_print : field? d.print = some (d.field, d.tail) := by
  have htail : Stops isTypeChar d.tail :=
    (atDirective_directives d.directives).stops (fun c => isBlank_eq_false_of_isTypeChar)
      (by decide)
  have hname : name? d.print
      = some (d.name.1, Arguments.print? d.arguments? ++ (d.typing ++ d.tail)) := by
    rw [print, name?_append (d.stops_behind_name d.tail), name?_of_letters d.name.2.1 d.name.2.2]
    rfl
  rw [field?_of_name hname, d.typed?_typing_append htail]
  rfl

/-- **A declaration holds its field, and the fields in the arguments of its directives.** -/
theorem fieldsIn_print : fieldsIn d.print = d.field :: d.directives.flatMap Directive.misread := by
  have hfield := d.field?_print
  obtain ⟨c, rest, hcons⟩ := List.exists_cons_of_ne_nil d.name.2.1
  have hprint : d.print
      = c :: (rest ++ (Arguments.print? d.arguments? ++ (d.typing ++ d.tail))) := by
    rw [print, hcons]
    rfl
  rw [hprint] at hfield ⊢
  rw [fieldsIn_cons_of_some hfield, tail, fieldsIn_directives]

end Declaration

/-! ## What counts as a declaration -/

/-- A text with a place where a field is declared: a letter of its name, a colon, opening brackets
if there are any, and a letter that a type can start with, with blanks around the colon at most. -/
def Declares (t : Text) : Prop :=
  ∃ (front : Text) (letter : Char) (before after : Gap) (brackets : Text) (start : Char)
    (rest : Text),
    t = front ++ letter :: (before.1 ++ ':' :: (after.1 ++ (brackets ++ start :: rest)))
      ∧ isNameChar letter = true ∧ (∀ c ∈ brackets, c = '[')
      ∧ (start.isAlpha || start == '_') = true

/-- A type is read from brackets and a letter that it can start with, whatever follows. -/
theorem type?_of_start {brackets : Text} {start : Char} (hbrackets : ∀ c ∈ brackets, c = '[')
    (hstart : (start.isAlpha || start == '_') = true) (rest : Text) :
    ∃ found, type? (brackets ++ start :: rest) = some found := by
  have hopening : ∀ c ∈ brackets, (c == '[') = true := fun c hc => beq_iff_eq.2 (hbrackets c hc)
  have hletter : ¬ (start == '[') = true := by
    intro he
    rw [beq_iff_eq.1 he] at hstart
    revert hstart
    decide
  unfold type?
  rw [List.dropWhile_append_of_pos hopening,
    List.dropWhile_cons_of_neg (p := (· == '[')) hletter, List.head?_cons, Option.any_some,
    if_pos hstart]
  exact ⟨_, rfl⟩

/-- A letter, a colon and the start of a type make a field. -/
theorem exists_field?_of_letter {letter start : Char} (before after : Gap) {brackets : Text}
    (hletter : isNameChar letter = true) (hbrackets : ∀ c ∈ brackets, c = '[')
    (hstart : (start.isAlpha || start == '_') = true) (rest : Text) :
    ∃ found, field? (letter :: (before.1 ++ ':' :: (after.1 ++ (brackets ++ start :: rest))))
      = some found := by
  have hstops : Stops isNameChar (before.1 ++ ':' :: (after.1 ++ (brackets ++ start :: rest))) :=
    stops_blanks_append (fun c => isBlank_eq_false_of_isNameChar) before.2 (.cons (by decide) _)
  have hname := name?_append hstops [letter]
  rw [name?_of_letters (List.cons_ne_nil _ _) (List.forall_mem_singleton.2 hletter)] at hname
  have hcolon : trimStart (before.1 ++ ':' :: (after.1 ++ (brackets ++ start :: rest)))
      = ':' :: (after.1 ++ (brackets ++ start :: rest)) := by
    rw [trimStart_blanks_append before.2, trimStart_of_stops (.cons (p := isBlank) (by decide) _)]
  have htype : Stops isBlank (brackets ++ start :: rest) := by
    intro c hc
    cases brackets with
    | nil =>
      rw [← Option.some.inj hc]
      exact isBlank_eq_false_of_isTypeChar (isTypeChar_of_starts_type hstart)
    | cons b brackets =>
      rw [← Option.some.inj hc, hbrackets b List.mem_cons_self]
      decide
  obtain ⟨found, hfound⟩ := type?_of_start hbrackets hstart rest
  rw [← List.singleton_append, field?_of_name hname, List.nil_append,
    LineShape.skipArguments_of_head (by rw [hcolon, List.head?_cons]; decide),
    typed?_of_colon ((trimStart_trimStart _).trans hcolon), trimStart_blanks_append after.2,
    trimStart_of_stops htype, hfound]
  exact ⟨_, rfl⟩

theorem exists_start_of_type? {t : Text} {found : Text × Text} (h : type? t = some found) :
    ∃ (brackets : Text) (start : Char) (rest : Text), t = brackets ++ start :: rest
      ∧ (∀ c ∈ brackets, c = '[') ∧ (start.isAlpha || start == '_') = true := by
  unfold type? at h
  split at h
  · rename_i hstarts
    obtain ⟨start, hhead, hstart⟩ := (Option.any_eq_true _ _).1 hstarts
    obtain ⟨rest, hrest⟩ := List.head?_eq_some_iff.1 hhead
    refine ⟨t.takeWhile (· == '['), start, rest, ?_, fun c hc => ?_, hstart⟩
    · rw [← hrest, List.takeWhile_append_dropWhile]
    · exact beq_iff_eq.1 (List.mem_takeWhile_imp (p := (· == '[')) hc)
  · cases h

/-- Where a field is read and no arguments end, a field is declared. -/
theorem declares_of_field? {t : Text} {found : Field × Text} (hclose : ')' ∉ t)
    (h : field? t = some found) : Declares t := by
  cases hn : name? t with
  | none =>
    rw [field?_of_no_name hn] at h
    cases h
  | some named =>
    obtain ⟨name, more⟩ := named
    have happ := append_of_name? hn
    have hmore : ')' ∉ trimStart more := fun hm => by
      refine hclose ?_
      rw [← happ]
      exact List.mem_append_right name ((trimStart_suffix more).subset hm)
    rw [field?_of_name hn, LineShape.skipArguments_of_not_mem hmore] at h
    obtain ⟨type, htyped, -⟩ := Option.map_eq_some_iff.1 h
    unfold typed? at htyped
    rw [trimStart_trimStart] at htyped
    split at htyped
    · rename_i rest hcolon
      obtain ⟨brackets, start, later, htype, hbrackets, hstart⟩ := exists_start_of_type? htyped
      obtain ⟨before, hbefore, hblanks⟩ := exists_trimStart_append more
      obtain ⟨after, hafter, hblanks'⟩ := exists_trimStart_append rest
      have hname := isName_of_name? hn
      obtain ⟨front, letter, rfl⟩ := (List.eq_nil_or_concat' name).resolve_left hname.1
      refine ⟨front, letter, ⟨before, hblanks⟩, ⟨after, hblanks'⟩, brackets, start, later, ?_,
        hname.2 letter (List.mem_append_right _ List.mem_cons_self), hbrackets, hstart⟩
      rw [← happ, hbefore, hcolon, hafter, htype, List.append_assoc]
      rfl
    · cases htyped

theorem exists_suffix_of_fieldsIn_ne_nil {t : Text} (h : fieldsIn t ≠ []) :
    ∃ u, u <:+ t ∧ ∃ found, field? u = some found := by
  fun_induction fieldsIn t with
  | case1 => exact absurd rfl h
  | case2 c rest f more hf _ ih => exact ⟨c :: rest, List.suffix_rfl, (f, more), hf⟩
  | case3 c rest hf ih =>
    obtain ⟨u, hu, hfound⟩ := ih h
    exact ⟨u, hu.trans (List.suffix_cons c rest), hfound⟩

theorem Declares.of_suffix {t u : Text} (h : Declares u) (hu : u <:+ t) : Declares t := by
  obtain ⟨front, letter, before, after, brackets, start, rest, rfl, hspec⟩ := h
  obtain ⟨more, rfl⟩ := hu
  exact ⟨more ++ front, letter, before, after, brackets, start, rest,
    (List.append_assoc ..).symm, hspec⟩

/-- **A text without closing parenthesis holds no field exactly where it declares none.** -/
theorem fieldsIn_eq_nil_iff {t : Text} (hclose : ')' ∉ t) : fieldsIn t = [] ↔ ¬ Declares t := by
  constructor
  · rintro hnil ⟨front, letter, before, after, brackets, start, rest, rfl, hletter, hbrackets, hstart⟩
    obtain ⟨found, hfound⟩ := exists_field?_of_letter before after hletter hbrackets hstart rest
    have hsuffix := fieldsIn_eq_nil_of_suffix hnil (List.suffix_append front _)
    rw [fieldsIn_cons_of_some hfound] at hsuffix
    cases hsuffix
  · intro hnone
    by_contra hne
    obtain ⟨u, hu, found, hfound⟩ := exists_suffix_of_fieldsIn_ne_nil hne
    exact hnone ((declares_of_field? (fun hm => hclose (hu.subset hm)) hfound).of_suffix hu)

/-! ## Directives that are not read as fields -/

/-- A directive holds no field exactly when its arguments declare none. -/
theorem misread_eq_nil_iff (d : Directive) :
    d.misread = [] ↔ ∀ a ∈ d.arguments?, ¬ Declares a.content := by
  unfold Directive.misread
  cases d.arguments? with
  | none => exact iff_of_true rfl fun a ha => by cases ha
  | some a =>
    change fieldsIn a.content = [] ↔ _
    rw [fieldsIn_eq_nil_iff a.unclosed]
    exact ⟨fun h b hb => Option.some.inj hb ▸ h, fun h => h a rfl⟩

/--
**A declaration is read as its field and nothing else exactly when no directive declares one.**

Behind the field stand the fields that are found in the arguments of the directives, from left to
right. There are none as long as no arguments hold a word, a colon and the start of a type in a row:
a key with a word, a truth value or a list of such for its value is read as a field, and so is a
colon between two words of a literal. A key with a number, a variable or a literal is not.
-/
theorem fieldsIn_print_iff (d : Declaration) :
    fieldsIn d.print = d.field :: d.directives.flatMap Directive.misread
      ∧ (fieldsIn d.print = [d.field]
          ↔ ∀ directive ∈ d.directives, ∀ a ∈ directive.arguments?, ¬ Declares a.content) := by
  refine ⟨d.fieldsIn_print, ?_⟩
  rw [d.fieldsIn_print, List.cons_eq_cons, List.flatMap_eq_nil_iff]
  refine (and_iff_right rfl).trans (forall₂_congr fun directive _ => ?_)
  exact misread_eq_nil_iff directive

/-- A flag with a default value: `active: Boolean @col(name: "is_active") @default(value: true)`. -/
def defaultFlag : Declaration :=
  let blank : Gap := ⟨[' '], .space⟩
  let none : Gap := ⟨[], .nil⟩
  { name := ⟨"active".toList, by decide⟩
    arguments? := .none
    beforeColon := none
    afterColon := blank
    type := ⟨"Boolean".toList, by decide⟩
    directives :=
      [⟨blank, ⟨"col".toList, by decide⟩, some ⟨none, "name: \"is_active\"".toList, by decide⟩⟩,
        ⟨blank, ⟨"default".toList, by decide⟩, some ⟨none, "value: true".toList, by decide⟩⟩] }

example : defaultFlag.print
    = "active: Boolean @col(name: \"is_active\") @default(value: true)".toList := by decide

/-- The default value is read as a field behind the flag. -/
theorem not_fieldsIn_print_defaultFlag : ¬ ∀ d : Declaration, fieldsIn d.print = [d.field] := by
  intro h
  have hread : fieldsIn defaultFlag.print ≠ [defaultFlag.field] := by decide +kernel
  exact hread (h defaultFlag)

end Declared

end GqlScan
