import GqlScan.Proofs.LiveTypes
import GqlScan.Proofs.TrailingComments.Settings
import GqlScan.Proofs.TypeReading

/-!
# Which trailing comments influence the types of a document

The scan for types cuts no trailing comments. It reads a comment for fields, for the end of
arguments that the line leaves open with a type behind, and on the header of a type that has no brace
yet, for the mark of a table. And a line closes a type only when it holds the brace and nothing else,
so behind a closing brace any comment keeps the type open, whatever it says.

A comment is harmless for the types when none of the readers finds anything in it, provided that no
closing line carries a comment; and there is no other comment of which this can be said.

Main statement: `definitions_indifferent_iff`.
-/

namespace GqlScan

open Text Comment LogicalLine

namespace Schema

/-- A comment without a field, without the mark of a table in front of its first brace, and without
the end of arguments that a type follows. -/
structure Plain (w : Text) : Prop where
  noField : fieldsIn w = []
  noMark : hasTableDirective (before '{' w) = false
  noArguments : ')' ∈ w → typed? (after ')' w) = none

/-- A document has the same types with and without its trailing comments. -/
def Indifferent (content : Text) : Prop :=
  definitions (withoutTrailing content) = definitions content

/-- A document has the same types when its live lines and their clean forms say the same. -/
theorem indifferent_iff_ofLive {content : Text} :
    Indifferent content ↔ ofLive ((liveText content).map clean) = ofLive (liveText content) := by
  unfold Indifferent
  rw [definitions_eq_ofLive, definitions_eq_ofLive, liveText_withoutTrailing]

/-- No line that closes a type without its comment carries one. -/
def ClosesBare (live : List Text) : Prop := ∀ l ∈ live, closes (clean l) = true → closes l = true

instance (live : List Text) : Decidable (ClosesBare live) :=
  inferInstanceAs (Decidable (∀ l ∈ live, closes (clean l) = true → closes l = true))

/-! ## Plain comments -/

section Remark

variable {b w : Text}

theorem sign_stopsPastBlanks (hb : Blanks b) {p : Char → Bool} (hp : p '#' = false) (w : Text) :
    StopsPastBlanks p (b ++ '#' :: w) := by
  unfold StopsPastBlanks
  rw [Remark.trimStart_comment hb]
  exact .cons hp w

theorem endsField_comment (hb : Blanks b) (hw : Plain w) : EndsField (b ++ '#' :: w) := by
  have hblank : ')' ∉ b := hb.not_mem (by decide)
  refine ⟨⟨sign_stopsPastBlanks hb (by decide) w, ?_⟩, ?_, ?_⟩
  · rw [Remark.trimStart_comment hb, List.head?_cons]
    decide
  · rw [Remark.trimStart_comment hb, List.head?_cons]
    decide
  · intro hmem
    have hin : ')' ∈ '#' :: w := (List.mem_append.1 hmem).resolve_left hblank
    have hmemw : ')' ∈ w := (List.mem_cons.1 hin).resolve_left (by decide)
    have hafter : after ')' ('#' :: w) = after ')' w :=
      after_append_of_not_mem (t := ['#']) (by decide) w
    rw [after_append_of_not_mem hblank, hafter]
    exact hw.noArguments hmemw

theorem fieldsIn_comment (hb : Blanks b) (hw : Plain w) : fieldsIn (b ++ '#' :: w) = [] := by
  rw [fieldsIn_blanks_append hb, fieldsIn_cons_of_stops (by decide), hw.noField]

/-- A plain comment adds no field to a text. -/
theorem fieldsIn_append_comment (hb : Blanks b) (hw : Plain w) (t : Text) :
    fieldsIn (t ++ (b ++ '#' :: w)) = fieldsIn t := by
  rw [fieldsIn_append (endsField_comment hb hw), fieldsIn_comment hb hw, List.append_nil]

theorem stops_comment (hb : Blanks b) (w : Text) : Stops isWordChar (b ++ '#' :: w) := by
  have hword : isWordChar '#' = false := by decide
  cases b with
  | nil => exact .cons hword w
  | cons c b => exact .cons (isWordChar_eq_false_of_isBlank (hb c List.mem_cons_self)) _

/-- A plain comment adds no mark to the rest of a header. -/
theorem hasTableDirective_append_comment (hb : Blanks b) (hw : Plain w) (t : Text) :
    hasTableDirective (t ++ (b ++ '#' :: before '{' w)) = hasTableDirective t := by
  have hblank : '@' ∉ b ++ ['#'] := by
    intro h
    rcases List.mem_append.1 h with h | h
    · exact hb.not_mem (by decide) h
    · revert h
      decide
  have hnone : hasTableDirective (b ++ '#' :: before '{' w) = false := by
    have happ : b ++ '#' :: before '{' w = (b ++ ['#']) ++ before '{' w := by
      rw [List.append_assoc]
      rfl
    rw [happ, hasTableDirective_append_of_no_at hblank, hw.noMark]
  rw [hasTableDirective_append (stops_comment hb _), hnone, Bool.or_false]

theorem started_append_comment (hb : Blanks b) (hw : Plain w) (name rest : Text) :
    started name (rest ++ (b ++ '#' :: w)) = started name rest := by
  unfold started
  by_cases hmem : '{' ∈ rest
  · rw [after_append_of_mem hmem, before_append_of_mem hmem, fieldsIn_append_comment hb hw]
  · have hblank : '{' ∉ b := hb.not_mem (by decide)
    have hbefore : before '{' (b ++ '#' :: w) = b ++ '#' :: before '{' w := by
      rw [before_append_of_not_mem hblank]
      rfl
    have hafter : fieldsIn (after '{' (b ++ '#' :: w)) = [] :=
      fieldsIn_eq_nil_of_suffix (fieldsIn_comment hb hw) (LineShape.after_suffix _ _)
    have hempty : after '{' rest = [] := after_of_not_mem hmem
    rw [after_append_of_not_mem hmem, before_append_of_not_mem hmem, hafter, hempty, hbefore,
      hasTableDirective_append_comment hb hw, before_of_not_mem hmem, fieldsIn_nil]

theorem header?_append_comment (hb : Blanks b) (hw : Plain w) (t : Text) :
    header? (t ++ (b ++ '#' :: w)) = header? t := by
  rw [header?_eq, header?_eq, headed?_append (sign_stopsPastBlanks hb (by decide) w),
    Option.map_map]
  congr 1
  funext found
  exact started_append_comment hb hw found.1 found.2

end Remark

/-- A live line whose trailing comment, if it has one, is plain, and which carries none when it
closes a type. -/
structure PlainLine (l : Text) : Prop where
  stops : Stops isBlank l
  solid : Solid l
  plain : ∀ w ∈ trailing? l, Plain w
  closing : closes (clean l) = true → closes l = true

/-- The clean form of a line closes a type when the line does. -/
theorem closes_clean {l : Text} (h : closes l = true) : closes (clean l) = true := by
  have hl : l = ['}'] := beq_iff_eq.1 h
  rw [hl]
  decide

/-- A line with a plain comment says what its clean form says. -/
theorem PlainLine.read_clean {l : Text} (hl : PlainLine l)
    (known : List TypeDefinition × Option TypeDefinition) :
    read known (clean l) = read known l := by
  rcases eq_clean_or_comment hl.stops hl.solid with h | ⟨b, w, hw, hb, happ⟩
  · rw [h]
  · have hplain := hl.plain w hw
    have hheader : header? l = header? (clean l) := by
      conv => lhs; rw [happ]
      exact header?_append_comment hb hplain _
    have hfields : fieldsIn l = fieldsIn (clean l) := by
      conv => lhs; rw [happ]
      exact fieldsIn_append_comment hb hplain _
    have hcloses : closes l = closes (clean l) :=
      Bool.eq_iff_iff.2 ⟨closes_clean, hl.closing⟩
    unfold read
    rw [hheader, hfields, hcloses]

/-- Plain comments on live lines do not change the types. -/
theorem ofLive_map_clean {live : List Text} (h : ∀ l ∈ live, PlainLine l) :
    ofLive (live.map clean) = ofLive live := by
  have hfold : ∀ known, (live.map clean).foldl read known = live.foldl read known := by
    induction live with
    | nil => exact fun known => rfl
    | cons l live ih =>
      intro known
      rw [List.map_cons, List.foldl_cons, List.foldl_cons, (h l List.mem_cons_self).read_clean,
        ih fun m hm => h m (List.mem_cons_of_mem l hm)]
  unfold ofLive
  rw [hfold]

/-- A document with plain comments alone, and none behind a closing brace, has the types that it has
without them. -/
theorem indifferent_of_plain {content : Text} (hplain : ∀ w ∈ trailing content, Plain w)
    (hclosing : ClosesBare (liveText content)) : Indifferent content := by
  rw [indifferent_iff_ofLive]
  refine ofLive_map_clean fun l hl => ?_
  have hline := isLive_of_mem_liveText hl
  exact ⟨hline.stops, hline.solid, fun w hw => hplain w (List.mem_filterMap.2 ⟨l, hl, hw⟩),
    hclosing l hl⟩

/-- A document without trailing comments loses nothing. -/
theorem indifferent_of_trailing_eq_nil {content : Text} (h : trailing content = []) :
    Indifferent content := by
  have hnone := List.filterMap_eq_nil_iff.1 h
  refine indifferent_of_plain (by rw [h]; exact fun w hw => absurd hw List.not_mem_nil) ?_
  intro l hl hcloses
  have hline := isLive_of_mem_liveText hl
  rwa [clean_eq_self hline.stops hline.solid (hnone l hl)] at hcloses

end Schema

/-! ## What a comment is taken for -/

namespace Setting

variable {w : Text}

/-- The front of a line that starts a type. -/
def typeHead : Text := ['t', 'y', 'p', 'e', ' ', 'A', ' ']

/-- A line in a type, where a comment is searched for fields. -/
def inType (line : Text) : Setting := ⟨[typeHead ++ ['{']], line, [['}']]⟩

/-- A line on which nothing goes on in the comment. -/
def member : Setting := inType ['a', ' ']

/-- A line with open arguments, which a comment can end and give a type. -/
def arguments : Setting := inType ['a', '(', ' ']

/-- The header of a type without a brace, where a comment is searched for the mark of a table. -/
def mark : Setting := ⟨[], typeHead, [['}']]⟩

/-- The end of a type. -/
def typeEnd : Setting := ⟨[typeHead ++ ['{']], ['}', ' '], []⟩

theorem sound_member : member.Sound := by decide

theorem sound_arguments : arguments.Sound := by decide

theorem sound_mark : mark.Sound := by decide

theorem sound_typeEnd : typeEnd.Sound := by decide

/-- A comment makes a difference to the types when it makes one to the live lines. -/
theorem Sound.not_indifferent_types {s : Setting} (hs : s.Sound) (hw : CanTrail w)
    (h : Schema.ofLive (s.withComment w) ≠ Schema.ofLive s.bare) :
    ¬ Schema.Indifferent (s.document w) := by
  rw [Schema.indifferent_iff_ofLive, hs.liveText_document hw, hs.map_clean_withComment]
  exact fun hsame => h hsame.symm

/-- The comment stands on no closing line when the line in front of it closes nothing. -/
theorem Sound.closesBare {s : Setting} (hs : s.Sound) (hline : Schema.closes (trim s.line) = false)
    (w : Text) : Schema.ClosesBare (s.withComment w) := by
  intro l hl hcloses
  rcases mem_withComment hl with h | rfl
  · rwa [hs.clean_other h] at hcloses
  · rw [hs.clean_line, hline] at hcloses
    cases hcloses

/-- The type of the settings without a comment. -/
def bareType : TypeDefinition := ⟨['A'], [], false⟩

/-- Without a comment all settings have the same type. -/
theorem ofLive_bare :
    Schema.ofLive member.bare = [bareType] ∧ Schema.ofLive arguments.bare = [bareType]
      ∧ Schema.ofLive mark.bare = [bareType] ∧ Schema.ofLive typeEnd.bare = [bareType] := by
  decide +kernel

theorem header?_typeHead : Schema.header? (typeHead ++ ['{']) = some bareType := by
  decide +kernel

theorem closes_append_sign (c : Char) (t w : Text) :
    Schema.closes (c :: t ++ '#' :: w) = false := by
  unfold Schema.closes
  rw [beq_eq_false_iff_ne]
  intro heq
  exact List.append_ne_nil_of_right_ne_nil t (List.cons_ne_nil '#' w) (List.cons.inj heq).2

/-- The comment on a line in a type is searched for fields with the line. -/
theorem ofLive_inType {c : Char} (hc : c ≠ 't') (line w : Text) :
    Schema.ofLive ((inType (c :: line)).withComment w)
      = [⟨['A'], Schema.fieldsIn (c :: line ++ '#' :: w), false⟩] := by
  have hlines : (inType (c :: line)).withComment w
      = [typeHead ++ ['{'], c :: line ++ '#' :: w, ['}']] := rfl
  have hheader : Schema.header? (c :: line ++ '#' :: w) = none :=
    Schema.header?_eq_none_of_head hc _
  unfold Schema.ofLive
  rw [hlines, List.foldl_cons, List.foldl_cons, Schema.read_of_header header?_typeHead,
    Schema.read_within hheader (closes_append_sign c line w)]
  rfl

/-- A comment with a field adds it to the type. -/
theorem ofLive_member_ne (hw : Schema.fieldsIn w ≠ []) :
    Schema.ofLive (member.withComment w) ≠ Schema.ofLive member.bare := by
  have hname : Schema.field? ('a' :: ' ' :: '#' :: w) = none := by
    have hread : name? ('a' :: ' ' :: '#' :: w) = some (['a'], ' ' :: '#' :: w) := rfl
    rw [Schema.field?_of_name hread]
    rfl
  have hfields : Schema.fieldsIn ('a' :: [' '] ++ '#' :: w) = Schema.fieldsIn w := by
    change Schema.fieldsIn ('a' :: ' ' :: '#' :: w) = _
    rw [Schema.fieldsIn_cons_of_none hname, Schema.fieldsIn_cons_of_stops (by decide),
      Schema.fieldsIn_cons_of_stops (by decide)]
  have hcomment : Schema.ofLive (member.withComment w) = [⟨['A'], Schema.fieldsIn w, false⟩] := by
    rw [← hfields]
    exact ofLive_inType (by decide) [' '] w
  rw [hcomment, ofLive_bare.1]
  intro heq
  exact hw (congrArg TypeDefinition.fields (List.cons.inj heq).1)

/-- A comment that ends the arguments of a field and gives its type makes a field of it. -/
theorem ofLive_arguments_ne (hmem : ')' ∈ w) (hw : Schema.typed? (after ')' w) ≠ none) :
    Schema.ofLive (arguments.withComment w) ≠ Schema.ofLive arguments.bare := by
  obtain ⟨found, hfound⟩ := Option.ne_none_iff_exists'.1 hw
  have hread : name? ('a' :: '(' :: ' ' :: '#' :: w) = some (['a'], '(' :: ' ' :: '#' :: w) := rfl
  have hopen : trimStart ('(' :: ' ' :: '#' :: w) = '(' :: ([' ', '#'] ++ w) := rfl
  have hfield : Schema.field? ('a' :: '(' :: ' ' :: '#' :: w)
      = some (⟨['a'], found.1, []⟩, found.2) := by
    rw [Schema.field?_of_name hread, hopen,
      LineShape.skipArguments_of_mem (List.mem_append_right _ hmem),
      after_append_of_not_mem (by decide), hfound]
    rfl
  have hcomment : Schema.ofLive (arguments.withComment w)
      = [⟨['A'], ⟨['a'], found.1, []⟩ :: Schema.fieldsIn found.2, false⟩] := by
    rw [← Schema.fieldsIn_cons_of_some hfield]
    exact ofLive_inType (by decide) ['(', ' '] w
  rw [hcomment, ofLive_bare.2.1]
  intro heq
  have hfields := congrArg TypeDefinition.fields (List.cons.inj heq).1
  cases hfields

/-- A comment with the mark of a table makes the type one. -/
theorem ofLive_mark_ne (hw : Schema.hasTableDirective (before '{' w) = true) :
    Schema.ofLive (mark.withComment w) ≠ Schema.ofLive mark.bare := by
  have hheaded : Schema.headed? typeHead = some (['A'], [' ']) := by decide +kernel
  have hheader : Schema.header? (typeHead ++ '#' :: w)
      = some (Schema.started ['A'] ([' '] ++ '#' :: w)) := by
    rw [Schema.header?_eq, Schema.headed?_append (.cons (by decide) (by decide) w), hheaded]
    rfl
  have hcomment : Schema.ofLive (mark.withComment w)
      = [Schema.started ['A'] ([' '] ++ '#' :: w)] := by
    have hlines : mark.withComment w = [typeHead ++ '#' :: w, ['}']] := rfl
    unfold Schema.ofLive
    rw [hlines, List.foldl_cons, Schema.read_of_header hheader]
    rfl
  have htable : (Schema.started ['A'] ([' '] ++ '#' :: w)).isTable = true := by
    have hbefore : before '{' ([' '] ++ '#' :: w) = [' ', '#'] ++ before '{' w := rfl
    unfold Schema.started
    rw [hbefore, Schema.hasTableDirective_append_of_no_at (by decide), hw]
  rw [hcomment, ofLive_bare.2.2.1]
  intro heq
  rw [(List.cons.inj heq).1] at htable
  cases htable

/-- Any comment behind a closing brace keeps the type open, and the document ends inside it. -/
theorem ofLive_typeEnd_ne (w : Text) :
    Schema.ofLive (typeEnd.withComment w) ≠ Schema.ofLive typeEnd.bare := by
  have hcomment : Schema.ofLive (typeEnd.withComment w) = [] := by
    have hlines : typeEnd.withComment w = [typeHead ++ ['{'], '}' :: [' '] ++ '#' :: w] := rfl
    have hheader : Schema.header? ('}' :: [' '] ++ '#' :: w) = none :=
      Schema.header?_eq_none_of_head (by decide) _
    unfold Schema.ofLive
    rw [hlines, List.foldl_cons, List.foldl_cons, Schema.read_of_header header?_typeHead,
      Schema.read_within hheader (closes_append_sign '}' [' '] w)]
    rfl
  rw [hcomment, ofLive_bare.2.2.2]
  exact (List.cons_ne_nil _ _).symm

end Setting

namespace Schema

/-- A comment that is not plain influences the types of some document. -/
theorem exists_of_not_plain {w : Text} (hw : CanTrail w) (h : ¬ Plain w) :
    ∃ content, trailing content = [w] ∧ ClosesBare (liveText content)
      ∧ ¬ Indifferent content := by
  have hsetting : ∀ s : Setting, s.Sound → closes (trim s.line) = false →
      ofLive (s.withComment w) ≠ ofLive s.bare →
      ∃ content, trailing content = [w] ∧ ClosesBare (liveText content)
        ∧ ¬ Indifferent content := fun s hs hline hne =>
    ⟨s.document w, hs.trailing_document hw, hs.liveText_document hw ▸ hs.closesBare hline w,
      hs.not_indifferent_types hw hne⟩
  by_cases hfield : fieldsIn w = []
  · cases hmark : hasTableDirective (before '{' w) with
    | true =>
      exact hsetting .mark Setting.sound_mark (by decide) (Setting.ofLive_mark_ne hmark)
    | false =>
      have harguments : ¬ (')' ∈ w → typed? (after ')' w) = none) := fun harguments =>
        h ⟨hfield, hmark, harguments⟩
      obtain ⟨hmem, htyped⟩ := Classical.not_imp.1 harguments
      exact hsetting .arguments Setting.sound_arguments (by decide)
        (Setting.ofLive_arguments_ne hmem htyped)
  · exact hsetting .member Setting.sound_member (by decide) (Setting.ofLive_member_ne hfield)

/-- Behind a closing brace no comment is harmless. -/
theorem exists_behind_brace {w : Text} (hw : CanTrail w) :
    ∃ content, trailing content = [w] ∧ ¬ Indifferent content :=
  ⟨Setting.typeEnd.document w, Setting.sound_typeEnd.trailing_document hw,
    Setting.sound_typeEnd.not_indifferent_types hw (Setting.ofLive_typeEnd_ne w)⟩

/--
**The comments that are harmless for the types are the plain ones.**

Take the documents whose trailing comments all satisfy `W`. Those in which no closing line carries a
comment all have the same types with and without the comments exactly when every comment in `W` is
plain. If a closing line may carry one as well, then no comment is harmless: all documents have the
same types only when `W` leaves no comment at all.
-/
theorem definitions_indifferent_iff (W : Text → Prop) :
    ((∀ content, (∀ w ∈ trailing content, W w) → ClosesBare (liveText content) →
        Indifferent content)
      ↔ ∀ w, CanTrail w → W w → Plain w)
    ∧ ((∀ content, (∀ w ∈ trailing content, W w) → Indifferent content)
      ↔ ∀ w, CanTrail w → ¬ W w) := by
  have hsingle : ∀ {content w : Text}, trailing content = [w] → W w →
      ∀ v ∈ trailing content, W v := by
    intro content w htrailing hW v hv
    rw [htrailing] at hv
    rw [List.mem_singleton.1 hv]
    exact hW
  refine ⟨⟨?_, ?_⟩, ?_, ?_⟩
  · intro hall w hw hW
    by_contra hplain
    obtain ⟨content, htrailing, hclosing, hdiffers⟩ := exists_of_not_plain hw hplain
    exact hdiffers (hall content (hsingle htrailing hW) hclosing)
  · intro hplain content hW hclosing
    exact indifferent_of_plain
      (fun w hw => hplain w (canTrail_of_mem_trailing hw) (hW w hw)) hclosing
  · intro hall w hw hW
    obtain ⟨content, htrailing, hdiffers⟩ := exists_behind_brace hw
    exact hdiffers (hall content (hsingle htrailing hW))
  · intro hnone content hW
    apply indifferent_of_trailing_eq_nil
    rw [List.eq_nil_iff_forall_not_mem]
    exact fun w hw => hnone w (canTrail_of_mem_trailing hw) (hW w hw)

/-- A document with plain comments behind a header and behind a field. -/
def remarkedTypes : Text :=
  "type A @table \x7b # the table\n  id: Int # the key\n\x7d\n".toList

theorem indifferent_remarkedTypes :
    trailing remarkedTypes = [" the table".toList, " the key".toList]
      ∧ Indifferent remarkedTypes := by
  have htrailing : trailing remarkedTypes = [" the table".toList, " the key".toList] := by
    decide +kernel
  have hplain : ∀ w ∈ trailing remarkedTypes, Plain w := by
    intro w hw
    rw [htrailing] at hw
    rcases List.mem_cons.1 hw with rfl | hw
    · exact ⟨by decide +kernel, by decide +kernel, by decide +kernel⟩
    · rw [List.mem_singleton.1 hw]
      exact ⟨by decide +kernel, by decide +kernel, by decide +kernel⟩
  refine ⟨htrailing, ?_⟩
  exact (definitions_indifferent_iff Plain).1.2 (fun w _ hw => hw) remarkedTypes hplain
    (by decide +kernel)

/-- A document with a field in a comment. -/
def recalledTypes : Text := "type A \x7b\n  id: String # old: Int\n\x7d\n".toList

/-- Not every document has the same types with and without its trailing comments. -/
theorem not_indifferent_recalledTypes : ¬ ∀ content, Indifferent content := by
  intro hall
  have hdiffers : definitions (withoutTrailing recalledTypes) ≠ definitions recalledTypes := by
    decide +kernel
  exact hdiffers (hall recalledTypes)

end Schema

end GqlScan
