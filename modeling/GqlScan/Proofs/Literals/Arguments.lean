import GqlScan.Proofs.Isolation
import GqlScan.Proofs.Literals.Reading
import GqlScan.Proofs.TrailingComments.Settings

/-!
# Places for a literal

A slot is a document with a place for the content of a string literal. It is an argument when the
literal stands between the parentheses of a field or a directive in the selection set of an
operation, every literal is closed on its line, and no line holds a block delimiter. Scenes are
slots of one form: a head line, the line with the literal, and the lines below.

Main statements: `IsArgument.exchange`, that harmless contents make arguments of the same slots, and
`Scene.Sound.fields_fill`, the fields of a scene.
-/

namespace GqlScan

open Text Comment

namespace Literal

variable {u w : Text}

/-- A document with a place for the content of a string literal: the text above its line, what
stands on the line in front of the opening quote, and the text behind the closing one. -/
structure Slot where
  above : Text
  front : Text
  behind : Text

/-- The document with a content in its place. -/
def Slot.fill (s : Slot) (w : Text) : Text := s.above ++ (s.front ++ (quoted w ++ s.behind))

theorem Slot.exchanged_fill (s : Slot) (u w : Text) : Exchanged u w (s.fill u) (s.fill w) :=
  (Exchanged.refl u w s.above).append
    ((Exchanged.refl u w s.front).append ((Exchanged.quoted u w).append (.refl u w s.behind)))

/-! ## Arguments -/

/-- What stands outside the literals of a text, starting in the given state. -/
def bareFrom (q : Quotation) : Text → Text
  | [] => []
  | c :: rest =>
    if q = .unquoted ∧ c ≠ '"' then c :: bareFrom (q.next c) rest else bareFrom (q.next c) rest

/-- The lines of a text without comments and literals. -/
def bare (t : Text) : Text := joinLines ((lineTexts t).map fun l => bareFrom .unquoted (cut l))

/-- At the end of a text the arguments of a field or directive are open, in the selection set that
the first brace opens behind the header of an operation. -/
def InArguments (t : Text) : Prop :=
  ∃ head selection arguments : Text, t = head ++ '{' :: (selection ++ '(' :: arguments)
    ∧ (Header.find? head ≠ none ∧ '{' ∉ head)
    ∧ (∃ depth, Block.run 0 selection = .stays depth)
    ∧ ')' ∉ arguments

/-- With the content `u`, the slot holds a literal in the arguments of a selection, among literals
that are closed on their lines and in lines without block delimiters. -/
structure Slot.IsArgument (s : Slot) (u : Text) : Prop where
  wholeLines : WholeLines s.above
  unbroken : Unbroken s.front
  outside : trailing? s.front = none ∧ Quotation.unquoted.past s.front = .unquoted
  inArguments : InArguments (bare (s.above ++ s.front))
  closed : ∀ l ∈ lineTexts (s.fill u), Quotation.unquoted.past (cut l) = .unquoted
  delimiters : ∀ l ∈ lineTexts (s.fill u), delimiterCount l = 0

theorem Exchanged.past_cutFrom_eq (hu : Harmless u) (hw : Harmless w) {t t' : Text}
    (h : Exchanged u w t t') (q : Quotation) :
    q.past (Comment.cutFrom q t) = q.past (Comment.cutFrom q t') := by
  induction h generalizing q with
  | nil => rfl
  | @cons c t t' _ ih =>
    rw [Comment.cutFrom, Comment.cutFrom]
    split
    · rfl
    · exact ih (q.next c)
  | literal _ ih =>
    rw [← quoted_append, ← quoted_append, cutFrom_append_of_no_sign hu.sign_quoted,
      cutFrom_append_of_no_sign hw.sign_quoted, Quotation.past_append, Quotation.past_append,
      Quotation.past_quoted hu.toIsContent, Quotation.past_quoted hw.toIsContent]
    exact ih _

theorem ExchangedLines.forall_mem {p : Text → Prop} {ls ls' : List Text}
    (h : ExchangedLines u w ls ls') (hp : ∀ {l l' : Text}, Exchanged u w l l' → p l → p l')
    (hls : ∀ l ∈ ls, p l) : ∀ l ∈ ls', p l := by
  induction h with
  | nil => exact fun l hl => absurd hl List.not_mem_nil
  | cons hl _ ih =>
    intro m hm
    rcases List.mem_cons.1 hm with rfl | hm
    · exact hp hl (hls _ List.mem_cons_self)
    · exact ih (fun l hl => hls l (List.mem_cons_of_mem _ hl)) m hm

/-- **A slot is an argument whatever harmless content it is filled with.** -/
theorem Slot.IsArgument.exchange (hu : Harmless u) (hw : Harmless w) {s : Slot}
    (h : s.IsArgument u) : s.IsArgument w := by
  have hlines := (s.exchanged_fill u w).lineTexts hu.toIsContent hw.toIsContent
  refine ⟨h.wholeLines, h.unbroken, h.outside, h.inArguments, ?_, ?_⟩
  · refine ExchangedLines.forall_mem hlines (fun hl hq => ?_) h.closed
    exact (hl.past_cutFrom_eq hu hw .unquoted).symm.trans hq
  · refine ExchangedLines.forall_mem hlines (fun hl hd => ?_) h.delimiters
    exact (hl.delimiterCount_eq hu hw).symm.trans hd

/-! ## Scenes -/

/-- The live lines of a document behind a head line, with a place for a literal on the first. -/
structure Scene where
  name : Char
  front : Text
  back : Text
  below : List Text

namespace Scene

/-- The line that opens the selection set. -/
def head (x : Scene) : Text := ['q', 'u', 'e', 'r', 'y', ' ', x.name, ' ', '{']

/-- The line with the literal. -/
def line (x : Scene) (w : Text) : Text := x.front ++ (quoted w ++ x.back)

/-- The live lines of a scene. -/
def lines (x : Scene) (w : Text) : List Text := x.head :: x.line w :: x.below

/-- The slot of a scene. -/
def slot (x : Scene) : Slot :=
  ⟨x.head ++ ['\n'], x.front, x.back ++ x.below.flatMap (List.cons '\n')⟩

/-- What makes the lines of a scene live, with no header but that of the head line and perhaps one
in the literal. -/
structure Sound (x : Scene) : Prop where
  below : ∀ l ∈ x.below, Unbroken l ∧ (trim l = l ∧ l ≠ []) ∧ ('#' ∉ l ∧ '"' ∉ l)
    ∧ Header.find? l = none
  unbroken : Unbroken x.head ∧ Unbroken x.front ∧ Unbroken x.back
  quote : '"' ∉ x.head
  trimmed : trimStart x.front = x.front ∧ trimEnd x.back = x.back ∧ x.front ≠ []
  sign : isLineComment x.front = false
  delimiters : delimiterCount (x.front ++ ['"']) = 0 ∧ delimiterCount ('"' :: x.back) = 0
  header : Header.locate? x.head = some (⟨.query, [x.name]⟩, [' ', '{'])
  noHeader : Header.locate? x.front = none ∧ Header.locate? x.back = none

instance (x : Scene) : Decidable x.Sound :=
  decidable_of_iff
    ((∀ l ∈ x.below, Unbroken l ∧ (trim l = l ∧ l ≠ []) ∧ ('#' ∉ l ∧ '"' ∉ l)
        ∧ Header.find? l = none)
      ∧ (Unbroken x.head ∧ Unbroken x.front ∧ Unbroken x.back)
      ∧ '"' ∉ x.head
      ∧ (trimStart x.front = x.front ∧ trimEnd x.back = x.back ∧ x.front ≠ [])
      ∧ isLineComment x.front = false
      ∧ (delimiterCount (x.front ++ ['"']) = 0 ∧ delimiterCount ('"' :: x.back) = 0)
      ∧ Header.locate? x.head = some (⟨.query, [x.name]⟩, [' ', '{'])
      ∧ Header.locate? x.front = none ∧ Header.locate? x.back = none)
    ⟨fun ⟨h1, h2, h3, h4, h5, h6, h7, h8⟩ => ⟨h1, h2, h3, h4, h5, h6, h7, h8⟩,
      fun ⟨h1, h2, h3, h4, h5, h6, h7, h8⟩ => ⟨h1, h2, h3, h4, h5, h6, h7, h8⟩⟩

variable {x : Scene}

theorem fill_slot (x : Scene) (w : Text) : x.slot.fill w = joinLines (x.lines w) := by
  unfold lines
  rw [joinLines_cons, List.flatMap_cons]
  unfold slot Slot.fill line
  simp only [List.append_assoc, List.cons_append, List.nil_append]

theorem Sound.isLive_below (hx : x.Sound) {l : Text} (hl : l ∈ x.below) : IsLive l ∧ l ≠ [] := by
  obtain ⟨hunbroken, ⟨htrim, hne⟩, ⟨hsign, hquote⟩, -⟩ := hx.below l hl
  refine ⟨⟨hunbroken, ?_, ?_, ?_, delimiterCount_eq_zero hquote⟩, hne⟩
  · rw [← htrim]
    exact stops_trim l
  · rw [← htrim]
    exact solid_trim l
  · unfold isLineComment
    rw [beq_eq_false_iff_ne]
    exact fun h => hsign (List.mem_of_head? h)

theorem Sound.isLive_head (hx : x.Sound) : IsLive x.head ∧ x.head ≠ [] := by
  have hlast : x.head.getLast? = some '{' := rfl
  have hsolid : Solid x.head := by
    intro c hc
    rw [hlast] at hc
    cases hc
    decide
  exact ⟨⟨hx.unbroken.1, .cons (by decide) _, hsolid, rfl, delimiterCount_eq_zero hx.quote⟩,
    List.cons_ne_nil _ _⟩

theorem Sound.isLive_line (hx : x.Sound) (hw : IsContent w) (hne : w ≠ []) :
    IsLive (x.line w) ∧ x.line w ≠ [] := by
  obtain ⟨hstart, hend, hfront⟩ := hx.trimmed
  have hstops : Stops isBlank x.front := by
    rw [← hstart]
    exact stops_trimStart _
  have hback : Solid ('"' :: x.back) := by
    have hquote : Solid ['"'] := by
      intro c hc
      cases hc
      decide
    by_cases hnil : x.back = []
    · rw [hnil]
      exact hquote
    · have hsolid : Solid x.back := hend ▸ solid_trimEnd x.back
      exact hsolid.append hnil ['"']
  have hsolid : Solid (quoted w ++ x.back) := by
    rw [quoted_append]
    exact hback.append (List.cons_ne_nil _ _) ('"' :: w)
  have hline : quoted w ++ x.back ≠ [] := List.cons_ne_nil _ _
  refine ⟨⟨?_, hstops.append hfront _, hsolid.append hline _, ?_, ?_⟩,
    List.append_ne_nil_of_left_ne_nil hfront _⟩
  · exact List.forall_mem_append.2 ⟨hx.unbroken.2.1,
      List.forall_mem_append.2 ⟨hw.unbroken_quoted, hx.unbroken.2.2⟩⟩
  · unfold isLineComment line
    rw [List.head?_append_of_ne_nil _ hfront]
    exact hx.sign
  · unfold line
    rw [quoted_append, List.append_cons, delimiterCount_append_content hw.quote hne,
      hx.delimiters.1, hx.delimiters.2]

/-- The live lines of a scene are its lines. -/
theorem Sound.liveText_fill (hx : x.Sound) (hw : IsContent w) (hne : w ≠ []) :
    liveText (x.slot.fill w) = x.lines w := by
  rw [fill_slot]
  refine Setting.liveText_joinLines (List.cons_ne_nil _ _) fun l hl => ?_
  rcases List.mem_cons.1 hl with rfl | hl
  · exact hx.isLive_head
  · rcases List.mem_cons.1 hl with rfl | hl
    · exact hx.isLive_line hw hne
    · exact hx.isLive_below hl

theorem Sound.locate?_line (hx : x.Sound) (w : Text) :
    Header.locate? (x.line w) = Header.locate? (quoted w ++ x.back) := by
  have hquote : isNameChar '"' = false := by decide
  unfold line
  rw [quoted_append, Header.locate?_append (.cons (by decide) hquote _), hx.noHeader.1]

/-- **The fields of a scene** are those of the block that starts at the line with the literal. -/
theorem Sound.fields_fill (hx : x.Sound) (hw : IsContent w) (hne : w ≠ [])
    (hheader : Header.locate? w = none) :
    (Document.operation? (x.slot.fill w)).map Operation.fields
      = some (Selection.fields [x.name] (Block.take (x.line w) x.below).body) := by
  have hrest : ∀ l ∈ x.line w :: x.below, Header.find? l = none := by
    intro l hl
    rcases List.mem_cons.1 hl with rfl | hl
    · unfold Header.find?
      rw [hx.locate?_line, locate?_quoted_append hheader, hx.noHeader.2]
      rfl
    · exact (hx.below l hl).2.2.2
  rw [Document.operation?_eq_ofLive?, hx.liveText_fill hw hne]
  unfold lines
  rw [Document.ofLive?_of_brace hx.header hrest (by decide), Option.map_some]
  have hempty : Block.run 0 [] = .stays 0 := rfl
  have hbody : (Block.take (after '{' [' ', '{']) (x.line w :: x.below)).body
      = [] :: (Block.take (x.line w) x.below).body :=
    congrArg Block.body (Block.takeFrom_cons hempty (x.line w) x.below)
  rw [hbody, Selection.fields_cons_nil]

/-- Behind another header in the literal the operation has no fields. -/
theorem Sound.fields_fill_of_header (hx : x.Sound) (hw : IsContent w) (hne : w ≠ [])
    {h : Header} (hheader : Header.find? w = some h) (hname : h.name ≠ [x.name]) :
    (Document.operation? (x.slot.fill w)).map Operation.fields = some [] := by
  have hhead : Header.find? x.head = some ⟨.query, [x.name]⟩ := by
    rw [Header.find?, hx.header, Option.map_some]
  have hline : Header.find? (x.line w) = some h := by
    have hquote : isNameChar '"' = false := by decide
    obtain ⟨⟨found, rest⟩, hlocate, rfl⟩ := Option.map_eq_some_iff.1 hheader
    unfold Header.find?
    rw [hx.locate?_line, quoted_append, Header.locate?_cons_of_stops hquote,
      Header.locate?_append (.cons (by decide) hquote _), hlocate]
    rfl
  have hothers : ∀ l ∈ x.line w :: x.below, ∀ found ∈ Header.find? l, found.name ≠ [x.name] := by
    intro l hl found hfound
    rcases List.mem_cons.1 hl with rfl | hl
    · rw [hline] at hfound
      cases hfound
      exact hname
    · rw [(hx.below l hl).2.2.2] at hfound
      cases hfound
  have hopens : Scope.opens [x.name] false x.head = true := by
    unfold Scope.opens
    rw [hhead]
    exact beq_self_eq_true _
  have hgoverned : Scope.governed [x.name] false (x.lines w) = [x.head] := by
    have hrest := Scope.governed_of_other_header true (Option.isSome_of_eq_some hline) hothers
    rw [lines, Scope.governed_cons, if_pos hopens, hrest]
  have hafter : Header.after x.head = [' ', '{'] := by
    rw [Header.after, hx.header]
  rw [Document.operation?_eq_ofLive?, hx.liveText_fill hw hne, Document.ofLive?]
  have hfirst : (x.lines w).findSome? Header.find? = some ⟨.query, [x.name]⟩ := by
    unfold lines
    rw [List.findSome?_cons, hhead]
  rw [hfirst, Option.map_some, Option.map_some, hgoverned]
  have hset : Document.selectionSet? (Document.withoutHeader [x.head]) = some ⟨[[]], 0, false⟩ := by
    rw [Document.withoutHeader, hafter]
    decide
  change some (Document.fieldsOf [x.name] [x.head]) = some []
  rw [Document.fieldsOf, hset]
  exact congrArg some (Selection.fields_of_no_lines rfl _)

end Scene

end Literal

end GqlScan
