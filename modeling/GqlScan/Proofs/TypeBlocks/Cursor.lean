import GqlScan.Proofs.LiveTypes
import GqlScan.Proofs.TypeReading

/-!
# The scan for types, character by character

Where line breaks are free, a text is easier to follow one character at a time: the characters of a
line are gathered, and a line break reads what has been gathered. A text is then passed piece by
piece, whatever lines its pieces make up.

Main statements: `foldl_read_lineTexts`, that this is the scan line by line, and `run_breaking`,
that blanks with a line break among them end a line and nothing more.
-/

namespace GqlScan.Schema

open Text

/-- A place in a line: what is known from the lines before, and what has been passed of the line. -/
structure Cursor where
  known : List TypeDefinition × Option TypeDefinition
  line : Text

namespace Cursor

/-- What is known when the line ends here. -/
def settled (s : Cursor) : List TypeDefinition × Option TypeDefinition := read s.known (trim s.line)

/-- Pass a character. -/
def pass (s : Cursor) (c : Char) : Cursor :=
  if isLineBreak c then ⟨s.settled, []⟩ else ⟨s.known, s.line ++ [c]⟩

/-- Pass a text. -/
def run (s : Cursor) (t : Text) : Cursor := t.foldl pass s

theorem run_nil (s : Cursor) : s.run [] = s := rfl

theorem run_cons (s : Cursor) (c : Char) (t : Text) : s.run (c :: t) = (s.pass c).run t := rfl

theorem run_append (s : Cursor) (t u : Text) : s.run (t ++ u) = (s.run t).run u :=
  List.foldl_append

theorem pass_of_break {c : Char} (hc : isLineBreak c = true) (s : Cursor) :
    s.pass c = ⟨s.settled, []⟩ := if_pos hc

theorem pass_of_not_break {c : Char} (hc : isLineBreak c = false) (s : Cursor) :
    s.pass c = ⟨s.known, s.line ++ [c]⟩ := by
  unfold pass
  rw [hc, if_neg Bool.false_ne_true]

theorem settled_of_blank_line {s : Cursor} (h : Blanks s.line) : s.settled = s.known := by
  unfold settled
  rw [trim_of_blanks h, read_nil]

/-- Without a line break everything is gathered. -/
theorem run_unbroken (s : Cursor) {t : Text} (ht : Unbroken t) :
    s.run t = ⟨s.known, s.line ++ t⟩ := by
  induction t generalizing s with
  | nil => rw [run_nil, List.append_nil]
  | cons c t ih =>
    rw [run_cons, pass_of_not_break (ht c List.mem_cons_self), ih _ ht.tail, List.append_assoc]
    rfl

/-- **The scan line by line and the scan character by character end alike.** The text may go on with
a line of which a front has been gathered. -/
theorem foldl_read_lineTexts (known : List TypeDefinition × Option TypeDefinition) {line : Text}
    (hline : Unbroken line) (t : Text) :
    ((lineTexts (line ++ t)).map trim).foldl read known = (run ⟨known, line⟩ t).settled := by
  have hnone : Unbroken ([] : Text) := List.forall_mem_nil _
  have hcut : ∀ {known line e rest}, Unbroken line → IsEnding e →
      (e = ['\r'] → rest.head? ≠ some '\n') →
      ((lineTexts (line ++ (e ++ rest))).map trim).foldl read known
        = ((lineTexts rest).map trim).foldl read (Cursor.settled ⟨known, line⟩) := by
    intro known line e rest hline he hrest
    unfold lineTexts
    rw [lines_append_ending hline he hrest]
    rfl
  fun_induction lines t generalizing known line with
  | case1 =>
    rw [List.append_nil, run_nil]
    by_cases hempty : line = []
    · rw [hempty]
      exact (settled_of_blank_line (s := ⟨known, []⟩) (List.forall_mem_nil _)).symm
    · unfold lineTexts
      rw [lines_unbroken hline hempty]
      rfl
  | case2 rest ih =>
    -- the feed of the pair ends an empty line, which says nothing
    have hempty : Cursor.settled ⟨Cursor.settled ⟨known, line⟩, []⟩
        = Cursor.settled ⟨known, line⟩ := settled_of_blank_line (List.forall_mem_nil _)
    have hpair : run ⟨known, line⟩ ('\r' :: '\n' :: rest)
        = run ⟨Cursor.settled ⟨known, line⟩, []⟩ rest := by
      rw [run_cons, run_cons, pass_of_break isLineBreak_return, pass_of_break isLineBreak_feed,
        hempty]
    rw [hpair, ← ih _ hnone]
    exact hcut hline .pair (fun h => by cases h)
  | case3 c rest hc hb ih =>
    rw [run_cons, pass_of_break hb, ← ih _ hnone]
    exact hcut hline (.single hb) (no_feed_behind hc)
  | case4 c rest hc hb ih =>
    have hbreak : isLineBreak c = false := Bool.not_eq_true _ ▸ hb
    have hlonger : Unbroken (line ++ [c]) :=
      List.forall_mem_append.2 ⟨hline, List.forall_mem_singleton.2 hbreak⟩
    rw [run_cons, pass_of_not_break hbreak, ← ih _ hlonger, List.append_assoc]
    rfl

/-! ## Blanks -/

section Blanks

variable {s : Cursor} {b : Text}

/-- On a blank line blanks change nothing. -/
theorem run_blanks_of_blank_line (hline : Blanks s.line) (hb : Blanks b) :
    ∃ line, Blanks line ∧ s.run b = ⟨s.known, line⟩ := by
  induction b generalizing s with
  | nil => exact ⟨s.line, hline, rfl⟩
  | cons c b ih =>
    obtain ⟨hblank, hrest⟩ := List.forall_mem_cons.1 hb
    rw [run_cons]
    cases hc : isLineBreak c with
    | true =>
      rw [pass_of_break hc, settled_of_blank_line hline]
      exact ih (s := ⟨s.known, []⟩) (List.forall_mem_nil _) hrest
    | false =>
      rw [pass_of_not_break hc]
      exact ih (s := ⟨s.known, s.line ++ [c]⟩)
        (List.forall_mem_append.2 ⟨hline, List.forall_mem_singleton.2 hblank⟩) hrest

/-- Blanks with a line break among them end the line. -/
theorem run_breaking (hb : Blanks b) (hbreak : ¬ Unbroken b) :
    ∃ line, Blanks line ∧ s.run b = ⟨s.settled, line⟩ := by
  induction b generalizing s with
  | nil => exact absurd (List.forall_mem_nil _) hbreak
  | cons c b ih =>
    obtain ⟨hblank, hrest⟩ := List.forall_mem_cons.1 hb
    rw [run_cons]
    cases hc : isLineBreak c with
    | true =>
      rw [pass_of_break hc]
      exact run_blanks_of_blank_line (s := ⟨s.settled, []⟩) (List.forall_mem_nil _) hrest
    | false =>
      have hlater : ¬ Unbroken b := fun h => hbreak (List.forall_mem_cons.2 ⟨hc, h⟩)
      have hsettled : Cursor.settled ⟨s.known, s.line ++ [c]⟩ = s.settled := by
        unfold settled
        rw [trim_append_blanks (List.forall_mem_singleton.2 hblank)]
      rw [pass_of_not_break hc, ← hsettled]
      exact ih hrest hlater

/-- Blanks at the end of a line do not change what it says, and blank lines say nothing. -/
theorem settled_run_blanks (hb : Blanks b) : (s.run b).settled = s.settled := by
  by_cases hbreak : Unbroken b
  · rw [run_unbroken s hbreak]
    unfold settled
    rw [trim_append_blanks hb]
  · obtain ⟨line, hline, hrun⟩ := run_breaking (s := s) hb hbreak
    rw [hrun]
    exact settled_of_blank_line hline

end Blanks

end Cursor

end GqlScan.Schema
