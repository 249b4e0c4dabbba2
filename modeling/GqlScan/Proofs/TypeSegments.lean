import Mathlib.Data.List.Induction
import GqlScan.Proofs.Spelling
import GqlScan.Proofs.TypeReading

/-!
# The types of a document, cut at their headers

The lines of a document fall into a front without headers and segments, each of which is a header
and the lines up to the next one. What the scan for types knows behind a number of segments can be
said without running it: each of them is a finished type, except for the last when no line in it is
a closing brace. A next header finishes that one too, with a notice, and the end of the document
drops it.

So a segment is read on its own: the header gives the name, the mark and the fields behind its
brace, the lines up to the first closing brace give the other fields, and the lines behind that
brace give nothing.

Main statements: `foldl_step_lines` for one segment, `foldl_step_segments` for a run of them and
`definitions_eq_finished` for documents.
-/

namespace GqlScan.Schema

open Text Canonical Comment

/-! ## Header lines -/

/-- A line that starts a type: the keyword, blanks, and the name as far as its letters go. -/
def Heads (line name : Text) : Prop :=
  ∃ gap rest, line = typeKeyword ++ (gap ++ (name ++ rest))
    ∧ gap ≠ [] ∧ Blanks gap ∧ IsName name ∧ Stops isNameChar rest

theorem headed?_of_parts {gap name rest : Text} (hne : gap ≠ []) (hgap : Blanks gap)
    (hname : IsName name) (hrest : Stops isNameChar rest) :
    headed? (typeKeyword ++ (gap ++ (name ++ rest))) = some (name, rest) := by
  have hkeyword : typeKeyword.isPrefixOf? (typeKeyword ++ (gap ++ (name ++ rest)))
      = some (gap ++ (name ++ rest)) := List.isPrefixOf?_eq_some_iff_append_eq.2 rfl
  obtain ⟨hblank, hread⟩ := name?_behind_blanks_iff.2 ⟨gap, rfl, hne, hgap, hname, hrest⟩
  unfold headed?
  rw [hkeyword]
  simp only [Option.bind_eq_bind, Option.bind_some]
  rw [if_pos hblank, hread]

theorem parts_of_headed? {line name rest : Text} (h : headed? line = some (name, rest)) :
    ∃ gap, line = typeKeyword ++ (gap ++ (name ++ rest))
      ∧ gap ≠ [] ∧ Blanks gap ∧ IsName name ∧ Stops isNameChar rest := by
  unfold headed? at h
  obtain ⟨more, hkeyword, h⟩ := Option.bind_eq_some_iff.1 h
  split at h
  · rename_i hblank
    obtain ⟨gap, rfl, hparts⟩ := name?_behind_blanks_iff.1 ⟨hblank, h⟩
    exact ⟨gap, (List.append_eq_of_isPrefixOf?_eq_some hkeyword).symm, hparts⟩
  · cases h

theorem heads_of_headed? {line : Text} {found : Text × Text} (h : headed? line = some found) :
    Heads line found.1 :=
  let ⟨gap, hparts⟩ := parts_of_headed? h
  ⟨gap, found.2, hparts⟩

/-- Whether a live line starts a type. -/
def isHeader (line : NumberedLine) : Bool := (headed? line.text).isSome

theorem isHeader_eq_false_iff {line : NumberedLine} :
    isHeader line = false ↔ ∀ name, ¬ Heads line.text name := by
  unfold isHeader
  rw [Option.isSome_eq_false_iff, Option.isNone_iff_eq_none]
  constructor
  · rintro hnone name ⟨gap, rest, hline, hne, hgap, hname, hrest⟩
    rw [hline, headed?_of_parts hne hgap hname hrest] at hnone
    cases hnone
  · intro hnone
    cases h : headed? line.text with
    | none => rfl
    | some found => exact absurd (heads_of_headed? h) (hnone found.1)

/-- The lines in front of the first header. -/
def untilHeader (lines : List NumberedLine) : List NumberedLine :=
  lines.takeWhile fun line => !isHeader line

theorem not_heads_of_mem_untilHeader {lines : List NumberedLine} {line : NumberedLine}
    (h : line ∈ untilHeader lines) : ∀ name, ¬ Heads line.text name := by
  have hline := List.mem_takeWhile_imp h
  rw [Bool.not_eq_true'] at hline
  exact isHeader_eq_false_iff.1 hline

theorem header?_eq_none_of_not_heads {line : Text} (h : ∀ name, ¬ Heads line name) :
    header? line = none := by
  rw [header?_eq_none_iff]
  cases hline : headed? line with
  | none => rfl
  | some found => exact absurd (heads_of_headed? hline) (h found.1)

/-! ## Marks -/

/-- A text that holds the mark of a table, as a whole word. -/
def Marked (t : Text) : Prop :=
  ∃ front rest, t = front ++ (tableDirective ++ rest) ∧ Stops isWordChar rest

theorem hasTableDirective_iff {t : Text} : hasTableDirective t = true ↔ Marked t := by
  induction t with
  | nil =>
    refine iff_of_false Bool.false_ne_true ?_
    rintro ⟨front, rest, ht, -⟩
    exact List.append_ne_nil_of_right_ne_nil front (List.cons_ne_nil _ _) ht.symm
  | cons c t ih =>
    rw [hasTableDirective_cons, Bool.or_eq_true, ih]
    constructor
    · rintro (hfront | ⟨front, rest, rfl, hrest⟩)
      · obtain ⟨rest, hrest, hword⟩ := (Option.any_eq_true _ _).1 hfront
        refine ⟨[], rest, (List.append_eq_of_isPrefixOf?_eq_some hrest).symm, fun d hd => ?_⟩
        rw [hd] at hword
        exact Bool.not_eq_true' _ ▸ hword
      · exact ⟨c :: front, rest, rfl, hrest⟩
    · rintro ⟨front, rest, ht, hrest⟩
      cases front with
      | nil =>
        refine .inl ((Option.any_eq_true _ _).2
          ⟨rest, List.isPrefixOf?_eq_some_iff_append_eq.2 ht.symm, ?_⟩)
        cases rest with
        | nil => rfl
        | cons d rest =>
          rw [List.head?_cons, Option.any_some, hrest.head]
          rfl
      | cons d front =>
        rw [List.cons_append] at ht
        cases ht
        exact .inr ⟨front, rest, rfl, hrest⟩

instance (t : Text) : Decidable (Marked t) := decidable_of_iff _ hasTableDirective_iff

/-! ## Segments -/

/-- A header of a type and the live lines behind it, up to the next header. -/
structure Segment where
  header : NumberedLine
  name : Text
  body : List NumberedLine
  starts : Heads header.text name
  within : ∀ line ∈ body, ∀ name, ¬ Heads line.text name

/-- Whether a live line closes a type. -/
def isClosing (line : NumberedLine) : Bool := closes line.text

/-- The fields in the lines behind a header, up to the first that closes the type. -/
def fieldsWithin (body : List NumberedLine) : List Field :=
  (body.takeWhile fun line => !isClosing line).flatMap fun line => fieldsIn line.text

theorem fieldsWithin_cons_of_closing {line : NumberedLine} (h : isClosing line = true)
    (body : List NumberedLine) : fieldsWithin (line :: body) = [] := by
  rw [fieldsWithin, List.takeWhile_cons, h]
  rfl

theorem fieldsWithin_cons_of_not_closing {line : NumberedLine} (h : isClosing line = false)
    (body : List NumberedLine) :
    fieldsWithin (line :: body) = fieldsIn line.text ++ fieldsWithin body := by
  rw [fieldsWithin, List.takeWhile_cons, h]
  rfl

namespace Segment

variable (s : Segment)

/-- The lines of a segment. -/
def lines : List NumberedLine := s.header :: s.body

/-- Whether a line of the segment is a closing brace. The header is none. -/
def closed : Bool := s.body.any isClosing

/-- The type that a segment gives. -/
def definition : TypeDefinition where
  name := s.name
  fields := fieldsIn (after '{' s.header.text) ++ fieldsWithin s.body
  isTable := decide (Marked (before '{' s.header.text))

end Segment

/-- Live lines cut at the headers, without the lines in front of the first. -/
def segments : List NumberedLine → List Segment
  | [] => []
  | line :: later =>
    match h : headed? line.text with
    | some found =>
      { header := line
        name := found.1
        body := untilHeader later
        starts := heads_of_headed? h
        within := fun _ hl => not_heads_of_mem_untilHeader hl }
        :: segments later
    | none => segments later

/-- The last segment, when no line of it is a closing brace. -/
def unfinished? (all : List Segment) : Option Segment := all.getLast?.filter fun s => !s.closed

/-- The segments without an unfinished one. -/
def finished (all : List Segment) : List Segment :=
  if (unfinished? all).isSome then all.dropLast else all

/-- The notices on segments that the next header ends. -/
def interruptions : List Segment → List Notice
  | s :: next :: later =>
    (if s.closed then [] else [.unclosedType s.name next.header.number])
      ++ interruptions (next :: later)
  | _ => []

/-- Cutting lines into segments loses none of them, and moves none. -/
theorem untilHeader_append_segments (lines : List NumberedLine) :
    untilHeader lines ++ (segments lines).flatMap Segment.lines = lines := by
  induction lines with
  | nil => rfl
  | cons line later ih =>
    rw [segments]
    split
    · rename_i found h
      have hheader : untilHeader (line :: later) = [] := by
        unfold untilHeader isHeader
        rw [List.takeWhile_cons, h]
        rfl
      rw [hheader, List.flatMap_cons, List.nil_append, Segment.lines, List.cons_append, ih]
    · rename_i h
      have hheader : untilHeader (line :: later) = line :: untilHeader later := by
        unfold untilHeader isHeader
        rw [List.takeWhile_cons, h]
        rfl
      rw [hheader, List.cons_append, ih]

/-- Every segment is finished, or it is the last and unfinished. -/
theorem finished_append_unfinished (all : List Segment) :
    finished all ++ (unfinished? all).toList = all := by
  unfold finished
  cases h : unfinished? all with
  | none => exact List.append_nil all
  | some s =>
    have hlast := (Option.filter_eq_some_iff.1 h).1
    exact List.dropLast_append_getLast? s hlast

theorem unfinished?_concat (all : List Segment) (s : Segment) :
    unfinished? (all ++ [s]) = if s.closed then none else some s := by
  unfold unfinished?
  rw [List.getLast?_concat, Option.filter_some]
  cases s.closed <;> rfl

theorem finished_concat (all : List Segment) (s : Segment) :
    finished (all ++ [s]) = all ++ if s.closed then [s] else [] := by
  unfold finished
  rw [unfinished?_concat]
  cases s.closed with
  | true => rfl
  | false => exact (List.dropLast_concat).trans (List.append_nil all).symm

theorem interruptions_concat (all : List Segment) (s : Segment) :
    interruptions (all ++ [s])
      = interruptions all
        ++ (unfinished? all).toList.map fun t => .unclosedType t.name s.header.number := by
  induction all with
  | nil => rfl
  | cons t all ih =>
    cases all with
    | nil =>
      unfold unfinished?
      rw [List.getLast?_singleton, Option.filter_some]
      change (if t.closed then [] else _) ++ [] = _
      cases t.closed <;> rfl
    | cons u all =>
      have hlast : unfinished? (t :: u :: all) = unfinished? (u :: all) := by
        unfold unfinished?
        rw [List.getLast?_cons_cons]
      rw [List.cons_append, List.cons_append, interruptions, interruptions, hlast,
        ← List.cons_append, ih, List.append_assoc]

/-! ## What a line does -/

/-- A header holds nothing but letters and blanks up to the end of the name. -/
theorem not_mem_headerFront {gap name : Text} (hgap : Blanks gap) (hname : IsName name) {c : Char}
    (hletter : isNameChar c = false) (hblank : isBlank c = false) :
    c ∉ typeKeyword ++ (gap ++ name) := by
  have hkeyword : ∀ d ∈ typeKeyword, isNameChar d = true := List.all_eq_true.1 (by decide)
  intro hm
  have hc : isNameChar c = true ∨ isBlank c = true := by
    rcases List.mem_append.1 hm with hm | hm
    · exact .inl (hkeyword c hm)
    · exact (List.mem_append.1 hm).symm.imp (hname.2 c) (hgap c)
  rcases hc with hc | hc
  · exact absurd hc (Bool.eq_false_iff.1 hletter)
  · exact absurd hc (Bool.eq_false_iff.1 hblank)

/-- The name of a header hides neither a brace nor a mark, so both may be looked for in the whole
line. -/
theorem header?_header (s : Segment) :
    header? s.header.text
      = some ⟨s.name, fieldsIn (after '{' s.header.text),
          decide (Marked (before '{' s.header.text))⟩ := by
  obtain ⟨gap, rest, hline, hne, hgap, hname, hrest⟩ := s.starts
  have hbrace := not_mem_headerFront (c := '{') hgap hname (by decide) (by decide)
  have hat := not_mem_headerFront (c := '@') hgap hname (by decide) (by decide)
  have hheaded := headed?_of_parts hne hgap hname hrest
  have hassoc : typeKeyword ++ (gap ++ (s.name ++ rest))
      = (typeKeyword ++ (gap ++ s.name)) ++ rest := by simp only [List.append_assoc]
  have hmark : decide (Marked (before '{' s.header.text)) = hasTableDirective (before '{' rest) := by
    rw [hline, hassoc, before_append_of_not_mem hbrace, Bool.eq_iff_iff, decide_eq_true_iff,
      ← hasTableDirective_iff, hasTableDirective_append_of_no_at hat]
  rw [hmark, hline, header?_eq, hheaded, hassoc, after_append_of_not_mem hbrace]
  rfl

theorem step_header (s : Segment) (p : Progress) :
    step p s.header
      = { finished := p.finished ++ p.current?.toList
          current? := some ⟨s.name, fieldsIn (after '{' s.header.text),
            decide (Marked (before '{' s.header.text))⟩
          notices := p.notices
            ++ p.current?.toList.map fun d => .unclosedType d.name s.header.number } := by
  unfold step
  rw [header?_header]

section

variable {line : NumberedLine} (h : header? line.text = none)
  (done : List TypeDefinition) (said : List Notice)

include h

theorem step_between : step ⟨done, none, said⟩ line = ⟨done, none, said⟩ := by
  unfold step
  rw [h]

theorem step_closing (hc : isClosing line = true) (d : TypeDefinition) :
    step ⟨done, some d, said⟩ line = ⟨done ++ [d], none, said⟩ := by
  unfold step
  rw [h]
  exact if_pos hc

theorem step_within (hc : isClosing line = false) (d : TypeDefinition) :
    step ⟨done, some d, said⟩ line
      = ⟨done, some { d with fields := d.fields ++ fieldsIn line.text }, said⟩ := by
  unfold step
  rw [h]
  exact if_neg (Bool.eq_false_iff.1 hc)

end

/-! ## What a segment does -/

section

variable (done : List TypeDefinition) (said : List Notice)

theorem foldl_step_between {body : List NumberedLine}
    (hbody : ∀ line ∈ body, header? line.text = none) :
    body.foldl step ⟨done, none, said⟩ = ⟨done, none, said⟩ := by
  induction body with
  | nil => rfl
  | cons line body ih =>
    rw [List.foldl_cons, step_between (hbody line List.mem_cons_self)]
    exact ih fun l hl => hbody l (List.mem_cons_of_mem line hl)

/-- An open type takes the fields of the lines up to the first closing brace, and is finished when
there is one. -/
theorem foldl_step_within {body : List NumberedLine}
    (hbody : ∀ line ∈ body, header? line.text = none) (d : TypeDefinition) :
    body.foldl step ⟨done, some d, said⟩
      = if body.any isClosing then
          ⟨done ++ [{ d with fields := d.fields ++ fieldsWithin body }], none, said⟩
        else ⟨done, some { d with fields := d.fields ++ fieldsWithin body }, said⟩ := by
  induction body generalizing d with
  | nil => rw [fieldsWithin, List.takeWhile_nil, List.flatMap_nil, List.append_nil]; rfl
  | cons line body ih =>
    have hline := hbody line List.mem_cons_self
    have hlater := fun l hl => hbody l (List.mem_cons_of_mem line hl)
    rw [List.foldl_cons, List.any_cons]
    cases hc : isClosing line with
    | true =>
      -- the lines behind the brace say nothing
      rw [step_closing hline done said hc, foldl_step_between _ _ hlater,
        fieldsWithin_cons_of_closing hc, List.append_nil]
      rfl
    | false =>
      rw [step_within hline done said hc, ih hlater, fieldsWithin_cons_of_not_closing hc,
        ← List.append_assoc]
      rfl

end

/-- What is known behind some segments. -/
def known (all : List Segment) : Progress where
  finished := (finished all).map Segment.definition
  current? := (unfinished? all).map Segment.definition
  notices := interruptions all

/-- A header behind some segments finishes all of them, with a notice if the last is still open. -/
theorem step_known (all : List Segment) (s : Segment) :
    step (known all) s.header
      = { finished := all.map Segment.definition
          current? := some ⟨s.name, fieldsIn (after '{' s.header.text),
            decide (Marked (before '{' s.header.text))⟩
          notices := interruptions (all ++ [s]) } := by
  have hflushed : (known all).finished ++ (known all).current?.toList
      = all.map Segment.definition := by
    conv => rhs; rw [← finished_append_unfinished all, List.map_append, ← Option.toList_map]
    rfl
  have hnotices : (known all).notices
      ++ (known all).current?.toList.map (fun d => .unclosedType d.name s.header.number)
        = interruptions (all ++ [s]) := by
    rw [interruptions_concat, known, Option.toList_map, List.map_map]
    rfl
  rw [step_header, hflushed, hnotices]

/-- A segment behind others finishes those, and is finished itself if it is closed. -/
theorem foldl_step_lines (all : List Segment) (s : Segment) :
    s.lines.foldl step (known all) = known (all ++ [s]) := by
  have hbody : ∀ line ∈ s.body, header? line.text = none :=
    fun line hl => header?_eq_none_of_not_heads (s.within line hl)
  rw [Segment.lines, List.foldl_cons, step_known, foldl_step_within _ _ hbody]
  unfold known
  rw [finished_concat, unfinished?_concat]
  change (if s.closed then _ else _) = _
  cases s.closed with
  | true =>
    rw [if_pos rfl, if_pos rfl, if_pos rfl, List.map_append]
    rfl
  | false =>
    simp only [Bool.false_eq_true, if_false, List.append_nil]
    rfl

/-- **The scan over segments finishes all of them but an unfinished last one.** -/
theorem foldl_step_segments (all : List Segment) :
    (all.flatMap Segment.lines).foldl step {} = known all := by
  induction all using List.reverseRecOn with
  | nil => rfl
  | append_singleton all s ih =>
    rw [List.flatMap_append, List.foldl_append, ih, List.flatMap_singleton, foldl_step_lines]

/-! ## Documents -/

/-- The segments of a document. -/
def segmentsOf (content : Text) : List Segment := segments (liveLines content)

/-- Before the first header nothing is known. -/
theorem progress_eq_known (content : Text) : progress content = known (segmentsOf content) := by
  have hfront : ∀ line ∈ untilHeader (liveLines content), header? line.text = none :=
    fun _ hl => header?_eq_none_of_not_heads (not_heads_of_mem_untilHeader hl)
  calc progress content
      = (untilHeader (liveLines content) ++ (segmentsOf content).flatMap Segment.lines).foldl
          step {} := by
        unfold progress segmentsOf
        rw [untilHeader_append_segments]
    _ = ((segmentsOf content).flatMap Segment.lines).foldl step {} := by
        rw [List.foldl_append, foldl_step_between _ _ hfront]
    _ = known (segmentsOf content) := foldl_step_segments (segmentsOf content)

/--
**Every header of a type is accounted for exactly once.**

The live lines of a document are lines that start no type and the segments behind them. All segments
are finished, in the order of the document, except for the last when it has no closing brace. Every
finished segment gives its own type. A segment without closing brace gives a notice when the next
header ends it, and another one when it is the last.
-/
theorem definitions_eq_finished (content : Text) :
    (∃ front, liveLines content = front ++ (segmentsOf content).flatMap Segment.lines
        ∧ ∀ line ∈ front, ∀ name, ¬ Heads line.text name)
      ∧ finished (segmentsOf content) ++ (unfinished? (segmentsOf content)).toList
          = segmentsOf content
      ∧ definitions content = (finished (segmentsOf content)).map Segment.definition
      ∧ notices content = interruptions (segmentsOf content)
          ++ (unfinished? (segmentsOf content)).toList.map fun s => .unfinishedType s.name := by
  refine ⟨⟨untilHeader (liveLines content), ?_, ?_⟩, ?_, ?_, ?_⟩
  · exact (untilHeader_append_segments (liveLines content)).symm
  · exact fun _ hl => not_heads_of_mem_untilHeader hl
  · exact finished_append_unfinished (segmentsOf content)
  · unfold definitions
    rw [progress_eq_known]
    rfl
  · unfold Schema.notices
    rw [progress_eq_known, known, Option.toList_map, List.map_map]
    rfl

end GqlScan.Schema
