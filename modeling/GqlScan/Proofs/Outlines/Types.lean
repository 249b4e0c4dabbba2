import GqlScan.Proofs.Outlines.OwnTree
import GqlScan.Proofs.TypeBlocks.Reading

/-!
# The outline of types is read back

An outline writes each type as a header and its fields as one line each, without braces. Whatever
text the types were found in, their names and the names and types of their fields are such as can be
written: so each line of the outline is live, is a header only where one was written, and holds one
field and no more. Every header finishes the type in front of it, and a brace behind the outline
finishes the last one.

Main statements: `legible_of_mem_definitions`, and `definitions_ofSchema` for the outline.
-/

namespace GqlScan

open Text Canonical TypeBlocks

/-! ## What is scanned can be written -/

/-- A type that can be written: it has a name, and each field is one that has a line. -/
structure TypeDefinition.Legible (d : TypeDefinition) : Prop where
  name : IsName d.name
  fields : ∀ f ∈ d.fields, ∃ m : Member, m.field = f

namespace Schema

theorem isReference_of_type? {t type rest : Text} (h : type? t = some (type, rest)) :
    IsReference type := by
  unfold type? at h
  split at h
  · rename_i hstarts
    cases h
    refine ⟨?_, fun c hc => List.mem_takeWhile_imp hc⟩
    -- the brackets and the letter behind them are all letters of a type
    have hsplit := List.takeWhile_append_dropWhile (p := (· == '[')) (l := t)
    obtain ⟨c, hc, hletter⟩ := (Option.any_eq_true _ _).1 hstarts
    obtain ⟨more, hmore⟩ := List.head?_eq_some_iff.1 hc
    have hopening : ∀ d ∈ t.takeWhile (· == '['), (d == '[') = true :=
      fun d hd => List.mem_takeWhile_imp (p := (· == '[')) hd
    have hbrackets : ∀ d ∈ t.takeWhile (· == '['), isTypeChar d = true := by
      intro d hd
      rw [beq_iff_eq.1 (hopening d hd)]
      decide
    have htype : isTypeChar c = true := isTypeChar_of_starts_type hletter
    have hbracket : ¬ (c == '[') = true := by
      intro hcb
      rw [beq_iff_eq.1 hcb] at hletter
      revert hletter
      decide
    rw [hmore] at hsplit
    rw [← hsplit, List.takeWhile_append_of_pos hbrackets, List.takeWhile_cons_of_pos htype,
      List.dropWhile_append_of_pos hopening,
      List.dropWhile_cons_of_neg (p := (· == '[')) hbracket]
    exact hletter
  · cases h

/-- A field that is read has a line of its own. -/
theorem exists_member_of_field? {t rest : Text} {f : Field} (h : field? t = some (f, rest)) :
    ∃ m : Member, m.field = f := by
  cases hn : name? t with
  | none =>
    rw [field?_of_no_name hn] at h
    cases h
  | some named =>
    obtain ⟨name, more⟩ := named
    rw [field?_of_name hn] at h
    obtain ⟨⟨type, after⟩, htyped, hfound⟩ := Option.map_eq_some_iff.1 h
    cases hfound
    have htype : IsReference type := by
      unfold typed? at htyped
      split at htyped
      · exact isReference_of_type? htyped
      · cases htyped
    exact ⟨⟨⟨[], List.forall_mem_nil _⟩, ⟨name, isName_of_name? hn⟩, ⟨type, htype⟩⟩, rfl⟩

theorem exists_member_of_mem_fieldsIn {t : Text} {f : Field} (h : f ∈ fieldsIn t) :
    ∃ m : Member, m.field = f := by
  fun_induction fieldsIn t with
  | case1 => cases h
  | case2 c rest g more hg _ ih =>
    rcases List.mem_cons.1 h with rfl | h
    · exact exists_member_of_field? hg
    · exact ih h
  | case3 c rest hnone ih => exact ih h

theorem legible_of_header? {line : Text} {d : TypeDefinition} (h : header? line = some d) :
    d.Legible := by
  rw [header?_eq] at h
  obtain ⟨⟨name, rest⟩, hheaded, rfl⟩ := Option.map_eq_some_iff.1 h
  refine ⟨?_, fun f hf => exists_member_of_mem_fieldsIn hf⟩
  obtain ⟨more, -, hname⟩ := Option.bind_eq_some_iff.1 hheaded
  split at hname
  · exact isName_of_name? hname
  · cases hname

/-- The types that are known, in the order of their headers: the open one is the last. -/
def inOrder (known : List TypeDefinition × Option TypeDefinition) : List TypeDefinition :=
  known.1 ++ known.2.toList

/-- All types that are known can be written, the open one included. -/
def Legible (known : List TypeDefinition × Option TypeDefinition) : Prop :=
  ∀ d ∈ inOrder known, d.Legible

/-- A line leaves all types such as can be written. -/
theorem legible_read {known : List TypeDefinition × Option TypeDefinition} (h : Legible known)
    (line : Text) : Legible (read known line) := by
  obtain ⟨finished, current?⟩ := known
  intro d hd
  cases hheader : header? line with
  | some started =>
    rw [read_of_header hheader] at hd
    rcases List.mem_append.1 hd with hd | hd
    · exact h d hd
    · rw [List.mem_singleton.1 hd]
      exact legible_of_header? hheader
  | none =>
    cases current? with
    | none =>
      rw [read_between hheader] at hd
      exact h d hd
    | some c =>
      cases hcloses : closes line with
      | true =>
        have hline : line = ['}'] := beq_iff_eq.1 hcloses
        rw [hline, read_closing, inOrder, Option.toList_none, List.append_nil] at hd
        exact h d hd
      | false =>
        rw [read_within hheader hcloses] at hd
        rcases List.mem_append.1 hd with hd | hd
        · exact h d (List.mem_append_left _ hd)
        · -- the open type gains the fields of the line
          have hc : c.Legible := h c (List.mem_append_right _ List.mem_cons_self)
          rw [List.mem_singleton.1 hd]
          refine ⟨hc.name, fun f hf => ?_⟩
          rcases List.mem_append.1 hf with hf | hf
          · exact hc.fields f hf
          · exact exists_member_of_mem_fieldsIn hf

theorem legible_foldl_read {known : List TypeDefinition × Option TypeDefinition}
    (h : Legible known) (live : List Text) : Legible (live.foldl read known) := by
  induction live generalizing known with
  | nil => exact h
  | cons line live ih =>
    rw [List.foldl_cons]
    exact ih (legible_read h line)

/-- **Whatever a document says, its types can be written.** -/
theorem legible_of_mem_definitions {content : Text} {d : TypeDefinition}
    (h : d ∈ definitions content) : d.Legible := by
  have hnone : Legible ([], none) := fun d hd => by cases hd
  rw [definitions_eq_ofLive] at h
  exact legible_foldl_read hnone _ d (List.mem_append_left _ h)

end Schema

/-! ## The lines of an outline -/

namespace Outline

open Schema

/-- The line of a header, which is that of a block with the same name and mark. -/
theorem exists_header {d : TypeDefinition} (hd : d.Legible) :
    ∃ b : TypeBlocks.Block, typeLines d = b.header :: d.fields.map (fieldLine 2)
      ∧ b.bare = { d with fields := [] } := by
  refine ⟨⟨⟨[], .nil⟩, ⟨d.name, hd.name⟩, d.isTable, ⟨[], .nil⟩, [], List.forall_mem_nil _,
    ⟨[], .nil⟩, ⟨[], .nil⟩⟩, ?_, rfl⟩
  unfold typeLines TypeBlocks.Block.header TypeBlocks.Block.mark
  rw [List.append_assoc]
  cases d.isTable with
  | false => rfl
  | true => rfl

theorem fieldLine_field (indent : Nat) (m : Member) :
    fieldLine indent m.field = List.replicate indent ' ' ++ m.text := by
  rw [fieldLine_eq]
  rfl

/-- The line of a field is trimmed to its text. -/
theorem trim_fieldLine (indent : Nat) (m : Member) :
    trim (fieldLine indent m.field) = m.text := by
  rw [fieldLine_field, trim_blanks_append (Source.blanks_replicate indent)]
  exact trim_of_stops_of_solid m.piece.stops m.piece.solid

/-- A line of an outline: it is live as it stands, and no line boundary parts it. -/
structure Plain (l : Text) : Prop where
  unbroken : Unbroken l
  ne_nil : l ≠ []
  signs : '#' ∉ l ∧ '"' ∉ l

theorem plain_header (b : TypeBlocks.Block) : Plain b.header :=
  ⟨b.unbroken_header, b.header_ne_nil, (Printed.of_written b.written_header).no_sign⟩

theorem plain_fieldLine (indent : Nat) (m : Member) : Plain (fieldLine indent m.field) := by
  have hblanks := Source.blanks_replicate indent
  have hspaces : Unbroken (List.replicate indent ' ') := by
    intro c hc
    rw [List.eq_of_mem_replicate hc]
    decide
  rw [fieldLine_field]
  exact ⟨List.forall_mem_append.2 ⟨hspaces, m.unbroken_text⟩,
    List.append_ne_nil_of_right_ne_nil _ m.text_ne_nil,
    ((Printed.of_blanks hblanks).append (.of_written m.written)).no_sign⟩

theorem plain_of_mem_typeLines {d : TypeDefinition} (hd : d.Legible) {l : Text}
    (hl : l ∈ typeLines d) : Plain l := by
  obtain ⟨b, hlines, -⟩ := exists_header hd
  rw [hlines] at hl
  rcases List.mem_cons.1 hl with rfl | hl
  · exact plain_header b
  · obtain ⟨f, hf, rfl⟩ := List.mem_map.1 hl
    obtain ⟨m, rfl⟩ := hd.fields f hf
    exact plain_fieldLine 2 m

/-! ## Reading an outline -/

/-- The lines of fields add these fields to the type that is open. -/
theorem foldl_read_fieldLines {fields : List Field} (h : ∀ f ∈ fields, ∃ m : Member, m.field = f)
    (finished : List TypeDefinition) (d : TypeDefinition) :
    ((fields.map (fieldLine 2)).map trim).foldl read (finished, some d)
      = (finished, some (extended d fields)) := by
  induction fields generalizing d with
  | nil =>
    rw [extended_nil]
    rfl
  | cons f fields ih =>
    obtain ⟨m, rfl⟩ := h f List.mem_cons_self
    have hheader : header? m.text = none := by
      have := m.header?_text []
      rwa [List.append_nil] at this
    have hcloses : closes m.text = false := by
      have := m.piece.noEnd []
      rwa [List.append_nil] at this
    have hfields : fieldsIn m.text = [m.field] := by
      have := m.fieldsIn_text (.nil _)
      rwa [List.append_nil, fieldsIn_nil] at this
    have hread : read (finished, some d) m.text = (finished, some (extended d [m.field])) := by
      rw [read_within hheader hcloses, hfields]
      rfl
    rw [List.map_cons, List.map_cons, List.foldl_cons, trim_fieldLine, hread,
      ih (fun g hg => h g (List.mem_cons_of_mem _ hg)), extended_extended]
    rfl

/-- The lines of a type finish the type in front of it and leave this one open. -/
theorem foldl_read_typeLines {d : TypeDefinition} (hd : d.Legible)
    (known : List TypeDefinition × Option TypeDefinition) :
    ((typeLines d).map trim).foldl read known = (inOrder known, some d) := by
  obtain ⟨b, hlines, hbare⟩ := exists_header hd
  have htrim : trim b.header = b.header := trim_of_stops_of_solid b.stops_header b.solid_header
  rw [hlines, List.map_cons, List.foldl_cons, htrim, read_of_header b.header?_alone,
    foldl_read_fieldLines hd.fields, hbare]
  rfl

/-- The types of an outline come to be known behind those that were, in their order. -/
theorem inOrder_foldl_read {ds : List TypeDefinition} (hds : ∀ d ∈ ds, d.Legible)
    (known : List TypeDefinition × Option TypeDefinition) :
    inOrder (((ds.flatMap typeLines).map trim).foldl read known) = inOrder known ++ ds := by
  induction ds generalizing known with
  | nil => exact (List.append_nil _).symm
  | cons d ds ih =>
    have hd := hds d List.mem_cons_self
    have hrest : ∀ e ∈ ds, e.Legible := fun e he => hds e (List.mem_cons_of_mem d he)
    rw [List.flatMap_cons, List.map_append, List.foldl_append, foldl_read_typeLines hd, ih hrest,
      List.append_cons]
    rfl

/-- A closing brace finishes the type that is open, so that all known ones are finished. -/
theorem finished_read_closing (known : List TypeDefinition × Option TypeDefinition) :
    (read known ['}']).1 = inOrder known := by
  obtain ⟨finished, current?⟩ := known
  cases current? with
  | none => exact (List.append_nil finished).symm
  | some d => rfl

/-- A further line is joined to others by a line feed. -/
theorem joinLines_concat {ls : List Text} (h : ls ≠ []) (l : Text) :
    joinLines (ls ++ [l]) = joinLines ls ++ '\n' :: l := by
  obtain ⟨first, more, rfl⟩ := List.exists_cons_of_ne_nil h
  rw [List.cons_append, joinLines_cons, joinLines_cons, List.flatMap_append,
    List.flatMap_singleton, List.append_assoc]

/-- The lines of an outline and of the brace behind it are all live. -/
theorem liveText_closed_outline {ls : List Text} (h : ∀ l ∈ ls, Plain l) :
    Comment.liveText (joinLines (ls ++ [['}']])) = ls.map trim ++ [['}']] := by
  have hclosing : Plain ['}'] := ⟨by decide, List.cons_ne_nil _ _, by decide⟩
  have hall : ∀ l ∈ ls ++ [['}']], Plain l := by
    intro l hl
    rcases List.mem_append.1 hl with hl | hl
    · exact h l hl
    · rw [List.mem_singleton.1 hl]
      exact hclosing
  have hlines := lineTexts_joinLines (List.append_ne_nil_of_right_ne_nil ls (List.cons_ne_nil _ _))
    (fun l hl => ⟨(hall l hl).unbroken, (hall l hl).ne_nil⟩) false
  rw [if_neg Bool.false_ne_true, List.append_nil] at hlines
  rw [Comment.liveText, hlines, Comment.liveTexts_eq_map_trim fun l hl => (hall l hl).signs,
    List.map_append]
  rfl

/-- Types that can be written are read back off their outline. -/
theorem definitions_of_legible {ds : List TypeDefinition} (hds : ∀ d ∈ ds, d.Legible) :
    definitions (ofSchema ds ++ ['\n', '}']) = ds := by
  cases ds with
  | nil => rfl
  | cons d ds =>
    have hplain : ∀ l ∈ (d :: ds).flatMap typeLines, Plain l := by
      intro l hl
      obtain ⟨e, he, hl⟩ := List.mem_flatMap.1 hl
      exact plain_of_mem_typeLines (hds e he) hl
    have hlines : (d :: ds).flatMap typeLines ≠ [] := List.cons_ne_nil _ _
    rw [ofSchema, ← joinLines_concat hlines, definitions_eq_ofLive,
      liveText_closed_outline hplain, ofLive, List.foldl_append, List.foldl_cons, List.foldl_nil,
      finished_read_closing, inOrder_foldl_read hds]
    rfl

/-- **The outline of the types of a document, with a closing brace behind it, is read back as these
types**: none is lost or moved, and each has its name, its mark and its fields, however often one
comes up. -/
theorem definitions_ofSchema (content : Text) :
    definitions (ofSchema (definitions content) ++ ['\n', '}']) = definitions content :=
  definitions_of_legible fun _ => legible_of_mem_definitions

end Outline

end GqlScan
