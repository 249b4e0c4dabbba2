import GqlScan.Proofs.TypeBlocks.Cursor
import GqlScan.Proofs.TypeBlocks.Source

/-!
# How type blocks are read

A block gives the scan its type in pieces: the header starts it, each field adds itself wherever on
a line it stands, and the closing brace ends it only when it stands alone on its line. A type that
its brace does not end is ended by the header of the next block. So the layout decides about the last
block alone: closed by its brace it is kept as it is, otherwise it goes on into the text behind it.

Main statement: `definitions_of_blocks`.
-/

namespace GqlScan

open Text Canonical

/-! ## Places within a type -/

namespace Schema

/-- A type with further fields. -/
def extended (d : TypeDefinition) (more : List Field) : TypeDefinition :=
  { d with fields := d.fields ++ more }

theorem extended_nil (d : TypeDefinition) : extended d [] = d := by
  unfold extended
  rw [List.append_nil]

theorem extended_extended (d : TypeDefinition) (fs gs : List Field) :
    extended (extended d fs) gs = extended d (fs ++ gs) := by
  unfold extended
  rw [List.append_assoc]

/-- A piece of a line within a type: it ends no type and starts none, and in front of a text that
does not go on with it in `p` it has the given fields. -/
structure Piece (p : Char → Bool) (t : Text) (fields : List Field) : Prop where
  unbroken : Unbroken t
  stops : Stops isBlank t
  solid : Solid t
  ne_nil : t ≠ []
  noHeader : ∀ u, header? (t ++ u) = none
  noEnd : ∀ u, closes (t ++ u) = false
  reads : ∀ v, Stops p v → fieldsIn (t ++ v) = fields ++ fieldsIn v

namespace Cursor

variable {p q : Char → Bool} {s : Cursor} {finished : List TypeDefinition} {d : TypeDefinition}
  {b t : Text} {fields : List Field}

/-- A place on a line within the type `d`: the line goes on to add the fields of what follows,
provided that this does not start in `p`. -/
def Within (p : Char → Bool) (s : Cursor) (finished : List TypeDefinition)
    (d : TypeDefinition) : Prop :=
  ∀ v, Stops p v → read s.known (trim (s.line ++ v)) = (finished, some (extended d (fieldsIn v)))

/-- A place on a blank line within the type `d`. -/
structure Between (s : Cursor) (finished : List TypeDefinition) (d : TypeDefinition) : Prop where
  known : s.known = (finished, some d)
  line : Blanks s.line

theorem Between.run (h : Between s finished d) (ht : Piece p t fields) :
    Within p (s.run t) finished (extended d fields) := by
  intro v hv
  have hstops : Stops p (trimEnd v) := hv.of_isPrefix (trimEnd_isPrefix v)
  rw [run_unbroken s ht.unbroken, List.append_assoc, trim_blanks_append h.line,
    trim_append_of_solid ht.stops ht.solid ht.ne_nil, h.known,
    read_within (ht.noHeader _) (ht.noEnd _), ht.reads _ hstops, fieldsIn_trimEnd,
    extended_extended]
  rfl

theorem Within.run (h : Within q s finished d) (ht : Unbroken t)
    (hstops : ∀ v, Stops p v → Stops q (t ++ v))
    (hreads : ∀ v, Stops p v → fieldsIn (t ++ v) = fields ++ fieldsIn v) :
    Within p (s.run t) finished (extended d fields) := by
  intro v hv
  rw [run_unbroken s ht, List.append_assoc, h _ (hstops v hv), hreads v hv, extended_extended]

theorem Within.settled (h : Within p s finished d) : s.settled = (finished, some d) := by
  have hend := h [] (.nil p)
  rwa [List.append_nil, fieldsIn_nil, extended_nil] at hend

/-- Blanks with a line break among them lead from one line of a type to the next. -/
theorem Within.break (h : Within p s finished d) (hb : Blanks b) (hbreak : ¬ Unbroken b) :
    Between (s.run b) finished d := by
  obtain ⟨line, hline, hrun⟩ := run_breaking (s := s) hb hbreak
  rw [hrun, h.settled]
  exact ⟨rfl, hline⟩

end Cursor

/-- A class of characters in which nothing starts. -/
def never : Char → Bool := fun _ => false

theorem stops_never (v : Text) : Stops never v := fun _ _ => rfl

end Schema

namespace TypeBlocks

open Schema Schema.Cursor

/-- Blanks do not start in a class of characters that are not blank. -/
theorem stops_of_blanks {p : Char → Bool} (hp : ∀ c, p c = true → isBlank c = false) {b : Text}
    (hb : Blanks b) : Stops p b := by
  intro c hc
  cases hpc : p c with
  | false => rfl
  | true =>
    have hblank := hb c (List.mem_of_head? hc)
    rw [hp c hpc] at hblank
    cases hblank

theorem stops_blanks_append {p : Char → Bool} (hp : ∀ c, p c = true → isBlank c = false) {b : Text}
    (hb : Blanks b) {v : Text} (hv : Stops p v) : Stops p (b ++ v) := by
  by_cases hne : b = []
  · rw [hne]
    exact hv
  · exact (stops_of_blanks hp hb).append hne v

/-! ## Fields -/

/-- A type reference is read whatever follows it. -/
theorem Reference.type?_eq (r : Reference) {v : Text} (hv : Stops isTypeChar v) :
    type? (r.1 ++ v) = some (r.1, v) := by
  have hown : type? r.1 = some (r.1, []) := by
    unfold type?
    rw [if_pos r.2.1, List.takeWhile_eq_self_iff.2 r.2.2, List.dropWhile_eq_nil_iff.2 r.2.2]
  rw [type?_append hv, hown]
  rfl

namespace Member

variable (m : Member)

theorem text_append (v : Text) :
    m.text ++ v = m.name.1 ++ (':' :: ' ' :: (m.type.1 ++ v)) := by
  unfold text
  rw [List.append_assoc, List.append_assoc]
  rfl

theorem name?_text (v : Text) :
    name? (m.text ++ v) = some (m.name.1, ':' :: ' ' :: (m.type.1 ++ v)) := by
  have hcolon : Stops isNameChar (':' :: ' ' :: (m.type.1 ++ v)) := .cons (by decide) _
  rw [text_append, name?_append hcolon, name?_of_letters m.name.2.1 m.name.2.2]
  rfl

theorem field?_text {v : Text} (hv : Stops isTypeChar v) :
    field? (m.text ++ v) = some (m.field, v) := by
  have hcolon : Stops isBlank (':' :: ' ' :: (m.type.1 ++ v)) := .cons (by decide) _
  have htype : Stops isBlank (m.type.1 ++ v) :=
    (Reference.stops m.type).append (Reference.ne_nil m.type) v
  have hskip : LineShape.skipArguments (trimStart (':' :: ' ' :: (m.type.1 ++ v)))
      = ':' :: ' ' :: (m.type.1 ++ v) := by
    rw [trimStart_of_stops hcolon]
    rfl
  rw [field?_of_name (m.name?_text v), hskip, typed?_of_colon (trimStart_of_stops hcolon),
    trimStart_cons_of_blank (by decide), trimStart_of_stops htype, Reference.type?_eq m.type hv]
  rfl

theorem fieldsIn_text {v : Text} (hv : Stops isTypeChar v) :
    fieldsIn (m.text ++ v) = m.field :: fieldsIn v := by
  have hfield := m.field?_text hv
  obtain ⟨c, rest, hcons⟩ := List.exists_cons_of_ne_nil m.name.2.1
  have htext : m.text ++ v = c :: (rest ++ (':' :: ' ' :: (m.type.1 ++ v))) := by
    rw [text_append, hcons]
    rfl
  rw [htext] at hfield ⊢
  exact fieldsIn_cons_of_some hfield

/-- The colon keeps a field from being a header, whatever its name. -/
theorem header?_text (v : Text) : header? (m.text ++ v) = none := by
  have hletters : ∀ c ∈ typeKeyword, isNameChar c = true := List.all_eq_true.1 (by decide)
  have hcolon : Stops isNameChar (':' :: ' ' :: (m.type.1 ++ v)) := .cons (by decide) _
  rw [header?_eq_none_iff, text_append]
  unfold headed?
  rw [isPrefixOf?_append hletters hcolon]
  cases h : typeKeyword.isPrefixOf? m.name.1 with
  | none => rfl
  | some more =>
    have hhead : ((more ++ ':' :: ' ' :: (m.type.1 ++ v)).head?.any isBlank) = false := by
      have hname : m.name.1 = typeKeyword ++ more :=
        (List.isPrefixOf?_eq_some_iff_append_eq.1 h).symm
      cases more with
      | nil => rfl
      | cons c more =>
        refine isBlank_eq_false_of_isNameChar (m.name.2.2 c ?_)
        rw [hname]
        exact List.mem_append_right _ List.mem_cons_self
    simp only [Option.map_some, Option.bind_eq_bind, Option.bind_some]
    rw [hhead, if_neg Bool.false_ne_true]

theorem text_ne_nil : m.text ≠ [] := List.append_ne_nil_of_left_ne_nil m.name.2.1 _

theorem unbroken_text : Unbroken m.text := m.written.unbroken unbroken_signs

/-- A field is a piece of its type on whatever line it stands. -/
theorem piece : Piece isTypeChar m.text [m.field] where
  unbroken := m.unbroken_text
  stops := m.name.stops.append m.name.2.1 _
  solid := ((Reference.solid m.type).append (Reference.ne_nil m.type) _).append
    (List.append_ne_nil_of_left_ne_nil (List.cons_ne_nil _ _) _) _
  ne_nil := m.text_ne_nil
  noHeader := m.header?_text
  noEnd := by
    intro u
    unfold closes
    rw [beq_eq_false_iff_ne]
    intro h
    obtain ⟨c, hc⟩ := List.exists_mem_of_ne_nil m.name.1 m.name.2.1
    have hmem : c ∈ m.text ++ u := List.mem_append_left _ (List.mem_append_left _ hc)
    rw [h, List.mem_singleton] at hmem
    have hletter := m.name.letters hc
    rw [hmem] at hletter
    revert hletter
    decide
  reads := fun v hv => m.fieldsIn_text hv

end Member

section Fields

variable {p : Char → Bool} {s : Cursor} {finished : List TypeDefinition} {d : TypeDefinition}

/-- **Passing a field adds it**, on the same line or after line breaks. -/
theorem within_member (h : Within p s finished d) (m : Member)
    (hgap : ∀ v, Stops p (m.gap.1 ++ (m.text ++ v))) :
    Within isTypeChar (s.run m.print) finished (extended d [m.field]) := by
  -- on the same line the blanks are passed with the field, after a line break it starts a line
  by_cases hbreak : Unbroken m.gap.1
  · refine h.run (List.forall_mem_append.2 ⟨hbreak, m.unbroken_text⟩) (fun v _ => ?_) fun v hv => ?_
    · unfold Member.print
      rw [List.append_assoc]
      exact hgap v
    · unfold Member.print
      rw [List.append_assoc, fieldsIn_blanks_append m.gap.2]
      exact m.fieldsIn_text hv
  · unfold Member.print
    rw [run_append]
    exact (h.break m.gap.2 hbreak).run m.piece

/-- Fields with blanks in front of each are passed one by one. -/
theorem within_parted (h : Within isTypeChar s finished d) {members : List Member}
    (hparted : ∀ m ∈ members, m.gap.1 ≠ []) :
    Within isTypeChar (s.run (members.flatMap Member.print)) finished
      (extended d (members.map Member.field)) := by
  induction members generalizing s d with
  | nil =>
    rw [List.map_nil, extended_nil]
    exact h
  | cons m members ih =>
    obtain ⟨hne, hrest⟩ := List.forall_mem_cons.1 hparted
    have hgap : Stops isTypeChar m.gap.1 :=
      stops_of_blanks (fun _ => isBlank_eq_false_of_isTypeChar) m.gap.2
    have hmember := within_member h m fun v => hgap.append hne _
    have hall := ih hmember hrest
    rw [extended_extended] at hall
    rw [List.flatMap_cons, run_append]
    exact hall

/-- All fields of a block are passed behind its opening brace. -/
theorem within_members (h : Within never s finished d) {members : List Member}
    (hparted : ∀ m ∈ members.tail, m.gap.1 ≠ []) :
    Within isTypeChar (s.run (members.flatMap Member.print)) finished
      (extended d (members.map Member.field)) := by
  cases members with
  | nil =>
    rw [List.map_nil, extended_nil]
    exact fun v _ => h v (stops_never v)
  | cons m members =>
    have hmember := within_member h m fun v => stops_never _
    have hall := within_parted hmember hparted
    rw [extended_extended] at hall
    rw [List.flatMap_cons, run_append]
    exact hall

end Fields

/-! ## The front of a block -/

/-- An opening brace at the start of a line is a piece without fields. -/
theorem piece_brace : Piece never ['{'] [] where
  unbroken := by decide
  stops := .cons (by decide) []
  solid := by
    intro c hc
    cases hc
    decide
  ne_nil := List.cons_ne_nil _ _
  noHeader := header?_eq_none_of_head (by decide)
  noEnd := fun u => rfl
  reads := fun v _ => fieldsIn_cons_of_stops (by decide) v

namespace Block

variable (b : Block)

theorem unbroken_header : Unbroken b.header := b.written_header.unbroken unbroken_signs

theorem stops_header : Stops isBlank b.header := .cons (by decide) _

theorem header_ne_nil : b.header ≠ [] := List.cons_ne_nil _ _

theorem solid_header : Solid b.header := by
  have hend : Solid (b.name.1 ++ b.mark) := by
    unfold mark
    split
    · have hmark : Solid (' ' :: tableDirective) := by
        intro c hc
        cases hc
        decide
      exact hmark.append (List.cons_ne_nil _ _) _
    · rw [List.append_nil]
      exact b.name.solid
  have hne : b.name.1 ++ b.mark ≠ [] := List.append_ne_nil_of_left_ne_nil b.name.2.1 _
  exact hend.append hne (typeKeyword ++ [' '])

theorem header?_header {u : Text} (hu : Stops isNameChar (b.mark ++ u)) :
    header? (b.header ++ u) = some (started b.name.1 (b.mark ++ u)) := by
  have hline : b.header ++ u = typeKeyword ++ ' ' :: (b.name.1 ++ (b.mark ++ u)) := by
    unfold header
    rw [List.append_assoc, List.cons_append, List.append_assoc]
  have hkeyword : typeKeyword.isPrefixOf? (typeKeyword ++ ' ' :: (b.name.1 ++ (b.mark ++ u)))
      = some (' ' :: (b.name.1 ++ (b.mark ++ u))) := rfl
  have hname : name? (trimStart (' ' :: (b.name.1 ++ (b.mark ++ u))))
      = some (b.name.1, b.mark ++ u) := by
    rw [trimStart_cons_of_blank (by decide), trimStart_of_stops (b.name.stops.append b.name.2.1 _),
      name?_append hu, name?_of_letters b.name.2.1 b.name.2.2]
    rfl
  have hheaded : headed? (b.header ++ u) = some (b.name.1, b.mark ++ u) := by
    rw [hline]
    unfold headed?
    rw [hkeyword]
    exact hname
  rw [header?_eq, hheaded]
  rfl

/-- The type of a block in front of its fields. -/
def bare : TypeDefinition := ⟨b.name.1, [], b.isTable⟩

theorem mark_no_brace {g : Text} (hg : Blanks g) : '{' ∉ b.mark ++ g := by
  have hmark : '{' ∉ b.mark := by
    unfold mark
    split
    · decide
    · exact List.not_mem_nil
  exact fun h => (List.mem_append.1 h).elim hmark (hg.not_mem (by decide))

theorem hasTableDirective_mark {g : Text} (hg : Blanks g) :
    hasTableDirective (b.mark ++ g) = b.isTable := by
  have hstops : Stops isWordChar g :=
    fun c hc => isWordChar_eq_false_of_isBlank (hg c (List.mem_of_head? hc))
  have hgap : hasTableDirective g = false := by
    have := hasTableDirective_append_of_no_at (hg.not_mem (c := '@') (by decide)) []
    rwa [List.append_nil] at this
  have hmark : hasTableDirective b.mark = b.isTable := by
    unfold mark
    cases b.isTable with
    | false => rfl
    | true => decide
  rw [hasTableDirective_append hstops, hgap, hmark, Bool.or_false]

theorem stops_mark {v : Text} (hv : Stops isNameChar v) : Stops isNameChar (b.mark ++ v) := by
  unfold mark
  split
  · exact .cons (by decide) _
  · exact hv

theorem header?_opening {g : Text} (hg : Blanks g) (u : Text) :
    header? (b.header ++ (g ++ '{' :: u)) = some (extended b.bare (fieldsIn u)) := by
  have hbrace : Stops isNameChar ('{' :: u) := .cons (by decide) u
  have hgap : Stops isNameChar (g ++ '{' :: u) :=
    stops_blanks_append (fun _ => isBlank_eq_false_of_isNameChar) hg hbrace
  have hafter : after '{' (b.mark ++ (g ++ '{' :: u)) = u := by
    rw [← List.append_assoc, after_append_of_not_mem (b.mark_no_brace hg)]
    rfl
  have hbefore : before '{' (b.mark ++ (g ++ '{' :: u)) = b.mark ++ g := by
    have hnil : before '{' ('{' :: u) = [] := rfl
    rw [← List.append_assoc, before_append_of_not_mem (b.mark_no_brace hg), hnil, List.append_nil]
  rw [b.header?_header (b.stops_mark hgap)]
  unfold started
  rw [hafter, hbefore, b.hasTableDirective_mark hg]
  rfl

/-- A header of which the brace stands on a later line. -/
theorem header?_alone : header? b.header = some b.bare := by
  have hmark := b.hasTableDirective_mark .nil
  have hbrace := b.mark_no_brace .nil
  have hheader := b.header?_header (u := []) (b.stops_mark (.nil _))
  rw [List.append_nil] at hmark hbrace hheader
  rw [List.append_nil] at hheader
  rw [hheader]
  unfold started
  rw [after_of_not_mem hbrace, before_of_not_mem hbrace, hmark, fieldsIn_nil]
  rfl

/-- **The header and the opening brace start the type**, and finish the one that is open. -/
theorem within_opening {s : Cursor} (hs : Blanks s.line) :
    Within never (s.run (b.indent.1 ++ (b.header ++ (b.opening.1 ++ ['{']))))
      (s.known.1 ++ s.known.2.toList) b.bare := by
  obtain ⟨line, hline, hindent⟩ := run_blanks_of_blank_line hs b.indent.2
  rw [run_append, hindent]
  -- the brace is read with the header, or the header is read alone and the brace starts a line
  by_cases hbreak : Unbroken b.opening.1
  · have hunbroken : Unbroken (b.header ++ (b.opening.1 ++ ['{'])) :=
      List.forall_mem_append.2 ⟨b.unbroken_header,
        List.forall_mem_append.2 ⟨hbreak, piece_brace.unbroken⟩⟩
    have hsolid : Solid (b.header ++ (b.opening.1 ++ ['{'])) :=
      (piece_brace.solid.append piece_brace.ne_nil _).append
        (List.append_ne_nil_of_right_ne_nil _ piece_brace.ne_nil) _
    have hstops : Stops isBlank (b.header ++ (b.opening.1 ++ ['{'])) :=
      b.stops_header.append b.header_ne_nil _
    intro v _
    have hheader : header? (b.header ++ (b.opening.1 ++ ['{']) ++ trimEnd v)
        = some (extended b.bare (fieldsIn v)) := by
      rw [List.append_assoc, List.append_assoc, ← fieldsIn_trimEnd v]
      exact b.header?_opening b.opening.2 _
    rw [run_unbroken _ hunbroken, List.append_assoc, trim_blanks_append hline,
      trim_append_of_solid hstops hsolid (List.append_ne_nil_of_left_ne_nil b.header_ne_nil _),
      read_of_header hheader]
  · obtain ⟨later, hlater, hgap⟩ :=
      run_breaking (s := ⟨s.known, line ++ b.header⟩) b.opening.2 hbreak
    have hsettled : Cursor.settled ⟨s.known, line ++ b.header⟩
        = (s.known.1 ++ s.known.2.toList, some b.bare) := by
      unfold Cursor.settled
      rw [trim_blanks_append hline, trim_of_stops_of_solid b.stops_header b.solid_header,
        read_of_header b.header?_alone]
    have hbetween : Between ⟨Cursor.settled ⟨s.known, line ++ b.header⟩, later⟩
        (s.known.1 ++ s.known.2.toList) b.bare := ⟨hsettled, hlater⟩
    rw [run_append, run_unbroken _ b.unbroken_header, run_append, hgap, ← extended_nil b.bare]
    exact hbetween.run piece_brace

/-- Up to its closing brace a block has given all its fields. -/
theorem within_front {s : Cursor} (hs : Blanks s.line) :
    Within isTypeChar (s.run b.front) (s.known.1 ++ s.known.2.toList) b.definition := by
  have hfront : b.front = (b.indent.1 ++ (b.header ++ (b.opening.1 ++ ['{'])))
      ++ b.members.flatMap Member.print := by
    simp only [front, List.append_assoc, List.cons_append, List.nil_append]
  rw [hfront, run_append]
  exact within_members (b.within_opening hs) b.parted

/-! ## The end of a block -/

/-- What is known behind a block, with the types that are finished in front of it: only a brace
alone on its line finishes the type. -/
def outcome (finished : List TypeDefinition) : List TypeDefinition × Option TypeDefinition :=
  if b.ClosesAlone then (finished ++ [b.definition], none) else (finished, some b.definition)

/-- The header of a next block finishes the type in either case. -/
theorem outcome_all (finished : List TypeDefinition) :
    (b.outcome finished).1 ++ (b.outcome finished).2.toList = finished ++ [b.definition] := by
  unfold outcome
  split
  · exact List.append_nil _
  · rfl

/-- **What a block leaves behind**, whatever its layout. -/
theorem settled_print {s : Cursor} (hs : Blanks s.line) :
    (s.run b.print).settled = b.outcome (s.known.1 ++ s.known.2.toList) := by
  have hfront := b.within_front hs
  have hprint : b.print = (b.front ++ (b.closing.1 ++ ['}'])) ++ b.trailing.1 := by
    simp only [print, List.append_assoc, List.cons_append, List.nil_append]
  rw [hprint, run_append, settled_run_blanks b.trailing.2, run_append, outcome]
  -- the brace is read on its own, or it is passed on the line of what stands in front of it
  by_cases halone : b.ClosesAlone
  · obtain ⟨hknown, hline⟩ := hfront.break b.closing.2 halone
    rw [if_pos halone, run_append, run_unbroken _ (by decide : Unbroken ['}'])]
    unfold Cursor.settled
    rw [trim_blanks_append hline, hknown]
    rfl
  · have hunbroken : Unbroken (b.closing.1 ++ ['}']) :=
      List.forall_mem_append.2 ⟨not_not.1 halone, (by decide : Unbroken ['}'])⟩
    have hend : Within never ((s.run b.front).run (b.closing.1 ++ ['}']))
        (s.known.1 ++ s.known.2.toList) (extended b.definition []) := by
      refine hfront.run hunbroken (fun v _ => ?_) fun v _ => ?_
      · rw [List.append_assoc]
        exact stops_blanks_append (fun _ => isBlank_eq_false_of_isTypeChar) b.closing.2
          (.cons (by decide) v)
      · rw [List.append_assoc, fieldsIn_blanks_append b.closing.2]
        exact fieldsIn_cons_of_stops (by decide) v
    rw [if_neg halone, hend.settled, extended_nil]

end Block

/-! ## Documents -/

theorem source_cons (b : Block) {blocks : List Block} (hne : blocks ≠ []) :
    source (b :: blocks) = b.print ++ '\n' :: source blocks := by
  obtain ⟨next, rest, rfl⟩ := List.exists_cons_of_ne_nil hne
  change b.print ++ ['\n'] ++ _ = _
  rw [List.append_assoc]
  rfl

/-- **A document of blocks leaves behind what its last block does**, with all types before it
finished. -/
theorem settled_source (init : List Block) (last : Block) {s : Cursor} (hs : Blanks s.line) :
    (s.run (source (init ++ [last]))).settled
      = last.outcome (s.known.1 ++ s.known.2.toList ++ init.map Block.definition) := by
  induction init generalizing s with
  | nil =>
    rw [List.map_nil, List.append_nil]
    exact last.settled_print hs
  | cons b init ih =>
    have hne : init ++ [last] ≠ [] := List.append_ne_nil_of_right_ne_nil _ (List.cons_ne_nil _ _)
    have hnext := ih (s := ⟨b.outcome (s.known.1 ++ s.known.2.toList), []⟩) (List.forall_mem_nil _)
    rw [List.cons_append, source_cons b hne, run_append, run_cons, pass_of_break isLineBreak_feed,
      b.settled_print hs, hnext, b.outcome_all, List.map_cons, List.append_assoc]
    rfl

/-- Behind blocks a document is scanned with what the blocks leave behind. -/
theorem foldl_read_source (blocks : List Block) {rest : Text}
    (hrest : ∀ c ∈ rest.head?, c = '\n') :
    (Comment.liveText (source blocks ++ rest)).foldl read ([], none)
      = (Comment.liveText rest).foldl read
          (Cursor.run ⟨([], none), []⟩ (source blocks)).settled := by
  have hlive : ∀ {t}, Printed t → ∀ l ∈ lineTexts t, '#' ∉ l ∧ '"' ∉ l := by
    intro t ht l hl
    obtain ⟨hsign, hquote⟩ := ht.no_sign
    have hsub := subset_of_mem_lineTexts hl
    exact ⟨fun h => hsign (hsub h), fun h => hquote (hsub h)⟩
  have hscan : ∀ {t}, Printed t → (Comment.liveText t).foldl read ([], none)
      = (Cursor.run ⟨([], none), []⟩ t).settled := by
    intro t ht
    unfold Comment.liveText
    rw [Comment.liveTexts_eq_map_trim (hlive ht)]
    exact foldl_read_lineTexts ([], none) (List.forall_mem_nil _) t
  have hsource := printed_source blocks
  cases rest with
  | nil =>
    rw [List.append_nil, hscan hsource]
    rfl
  | cons c rest =>
    obtain rfl : c = '\n' := hrest c rfl
    -- the feed ends the last line of the blocks, and leaves the text behind an empty first line
    have hwhole : Printed (source blocks ++ ['\n']) := hsource.append (.of_blanks (by decide))
    have hself : Comment.SelfContained (source blocks ++ ['\n']) :=
      ⟨wholeLines_append_feed _,
        Comment.openAfter_of_live fun l hl => Comment.live_of_no_sign (hlive hwhole l hl)⟩
    have hfeed : Comment.SelfContained ['\n'] := ⟨wholeLines_append_feed [], by decide⟩
    have hempty : Comment.liveText ['\n'] = [[]] := by decide
    have hbelow := hfeed.liveText_append rest
    rw [hempty] at hbelow
    have hsplit : source blocks ++ '\n' :: rest = (source blocks ++ ['\n']) ++ rest := by
      rw [List.append_assoc]
      rfl
    change _ = (Comment.liveText (['\n'] ++ rest)).foldl read _
    rw [hsplit, hself.liveText_append, List.foldl_append, hscan hwhole, run_append,
      settled_run_blanks (by decide), hbelow, List.foldl_append, List.foldl_cons, read_nil]
    rfl

/--
**A block ends at its closing brace when the brace stands alone on its line, or when another block
follows.**

The types of a document of blocks are those of the blocks, each with its own fields and mark and no
others, and then those of the text behind, of which there are none when no live line there starts a
type. How the blocks are laid out is free, but for the last one: if its closing brace does not stand
alone on its line, the type goes on into the text behind it. There it takes all fields up to the
first line that closes a type or starts one, and without such a line it is lost.
-/
theorem definitions_of_blocks (blocks : List Block) {rest : Text}
    (hrest : ∀ c ∈ rest.head?, c = '\n') :
    ((∀ last ∈ blocks.getLast?, last.ClosesAlone) →
      definitions (source blocks ++ rest) = blocks.map Block.definition ++ definitions rest)
    ∧ ((∀ line ∈ Comment.liveText rest, header? line = none) → definitions rest = [])
    ∧ ∀ init last, blocks = init ++ [last] → ¬ last.ClosesAlone →
      definitions (source blocks ++ rest)
        = init.map Block.definition
          ++ ofLiveWithin last.definition (Comment.liveText rest) := by
  have hdocument : ∀ init last, blocks = init ++ [last] →
      definitions (source blocks ++ rest)
        = ((Comment.liveText rest).foldl read
            (last.outcome (init.map Block.definition))).1 := by
    intro init last hblocks
    rw [definitions_eq_ofLive, ofLive, foldl_read_source blocks hrest, hblocks,
      settled_source init last (s := ⟨([], none), []⟩) (List.forall_mem_nil _)]
    rfl
  refine ⟨fun hlast => ?_, fun hnone => ?_, fun init last hblocks halone => ?_⟩
  · rcases List.eq_nil_or_concat' blocks with hnil | ⟨init, last, hblocks⟩
    · rw [hnil]
      rfl
    · have halone : last.ClosesAlone := hlast last (by rw [hblocks, List.getLast?_concat]; rfl)
      have hall : blocks.map Block.definition = init.map Block.definition ++ [last.definition] := by
        rw [hblocks, List.map_append]
        rfl
      have happend := foldl_read_append (blocks.map Block.definition) ([], none)
        (Comment.liveText rest)
      rw [List.append_nil] at happend
      rw [hdocument init last hblocks, Block.outcome, if_pos halone, ← hall, happend,
        definitions_eq_ofLive rest, ofLive]
  · rw [definitions_eq_ofLive]
    exact ofLive_eq_nil hnone
  · have happend := foldl_read_append (init.map Block.definition) ([], some last.definition)
      (Comment.liveText rest)
    rw [List.append_nil] at happend
    rw [hdocument init last hblocks, Block.outcome, if_neg halone, happend, foldl_read_within]

/-- A block on one line. -/
def inlineBlock : Block where
  indent := ⟨[], by decide⟩
  name := ⟨['A'], by decide⟩
  isTable := false
  opening := ⟨[' '], by decide⟩
  members := [⟨⟨[' '], by decide⟩, ⟨['x'], by decide⟩, ⟨"Int".toList, by decide⟩⟩]
  parted := by decide
  closing := ⟨[' '], by decide⟩
  trailing := ⟨[], by decide⟩

/-- A block with its brace and its fields on lines of their own. -/
def tallBlock : Block where
  indent := ⟨[], by decide⟩
  name := ⟨['B'], by decide⟩
  isTable := true
  opening := ⟨['\n'], by decide⟩
  members :=
    [⟨⟨"\n  ".toList, by decide⟩, ⟨['y'], by decide⟩, ⟨"[Int!]".toList, by decide⟩⟩,
      ⟨⟨[' '], by decide⟩, ⟨['z'], by decide⟩, ⟨"Int".toList, by decide⟩⟩]
  parted := by decide
  closing := ⟨['\n'], by decide⟩
  trailing := ⟨[], by decide⟩

/-- An operation behind the blocks, with a variable that looks like a field. -/
def operationBehind : Text := '\n' :: "query Q($id: UUID) \x7b\n  movie\n\x7d\n".toList

theorem head_operationBehind : ∀ c ∈ operationBehind.head?, c = '\n' := fun c hc => by
  cases hc
  rfl

theorem definitions_of_inline_and_tall :
    source [inlineBlock, tallBlock]
        = "type A \x7b x: Int \x7d\ntype B @table\n\x7b\n  y: [Int!] z: Int\n\x7d".toList
      ∧ definitions (source [inlineBlock, tallBlock] ++ operationBehind)
        = [inlineBlock.definition, tallBlock.definition] ++ definitions operationBehind
      ∧ definitions operationBehind = []
      ∧ definitions (source [tallBlock, inlineBlock] ++ operationBehind)
        = [tallBlock.definition]
          ++ ofLiveWithin inlineBlock.definition (Comment.liveText operationBehind) := by
  obtain ⟨hclosed, hnone, -⟩ := definitions_of_blocks [inlineBlock, tallBlock] head_operationBehind
  obtain ⟨-, -, hopen⟩ := definitions_of_blocks [tallBlock, inlineBlock] head_operationBehind
  refine ⟨by decide +kernel, hclosed ?_, hnone (by decide +kernel), ?_⟩
  · intro last hlast
    cases hlast
    decide
  · exact hopen [tallBlock] inlineBlock rfl (by decide)

/-- A block on one line, which no other block follows, takes the variable of the operation behind it
for a field. -/
theorem not_definitions_of_inlineBlock :
    ¬ ∀ (blocks : List Block) (rest : Text), (∀ c ∈ rest.head?, c = '\n') →
      (∀ line ∈ Comment.liveText rest, header? line = none) →
      definitions (source blocks ++ rest) = blocks.map Block.definition := by
  intro hall
  have htaken : definitions (source [inlineBlock] ++ operationBehind)
      ≠ [inlineBlock].map Block.definition := by decide +kernel
  exact htaken (hall [inlineBlock] operationBehind head_operationBehind (by decide +kernel))

end TypeBlocks

end GqlScan
