import GqlScan.Proofs.LiveTypes

/-!
# The types of a document in front of more text

The scan for types keeps two things from one line to the next, whether a block comment is open and
which type is, and a list that it only ever appends to. So a type that is finished stays as it is,
whatever text follows: no later line extends it, drops it or comes before it. And where whole lines
leave neither a comment nor a type open, the text behind them is scanned as if it stood alone.

Main statements: `finished_isPrefix_step` for one line, `finished_isPrefix_foldl` for a run, and
`definitions_append` for documents.
-/

namespace GqlScan.Schema

open Text

/-! ## Finished types stay -/

/-- A line adds finished types behind those that there are. -/
theorem finished_isPrefix_step (p : Progress) (line : Comment.NumberedLine) :
    p.finished <+: (step p line).finished := by
  unfold step
  split
  · exact List.prefix_append _ _
  · split
    · exact List.prefix_rfl
    · split
      · exact List.prefix_append _ _
      · exact List.prefix_rfl

/-- What is finished before a run of lines is finished behind it. -/
theorem finished_isPrefix_foldl (p : Progress) (lines : List Comment.NumberedLine) :
    p.finished <+: (lines.foldl step p).finished := by
  induction lines generalizing p with
  | nil => exact List.prefix_rfl
  | cons line lines ih =>
    rw [List.foldl_cons]
    exact (finished_isPrefix_step p line).trans (ih (step p line))

/-! ## Whole lines and what follows them -/

/-- Behind whole lines the scan goes on from where they left it. -/
theorem progress_append {P : Text} (hP : WholeLines P) (S : Text) :
    progress (P ++ S)
      = (Comment.liveFrom (Comment.openAfter false (lineTexts P)) (1 + (lineTexts P).length)
          (lineTexts S)).foldl step (progress P) := by
  unfold progress Comment.liveLines
  rw [lineTexts_append hP, Comment.liveFrom_append, List.foldl_append]

/-- Where no comment and no type is open, the types of the lines behind are their own. -/
theorem types_foldl_of_closed {p : Progress} (hp : p.current? = none) (number : Nat) (S : Text) :
    ((Comment.liveFrom false number (lineTexts S)).foldl step p).finished
      = p.finished ++ definitions S := by
  have htypes : p.types = (p.finished ++ [], none) := by
    rw [List.append_nil]
    unfold Progress.types
    rw [hp]
  have hlive : ((Comment.liveFrom false number (lineTexts S)).map Comment.NumberedLine.text)
      = Comment.liveText S := Comment.map_text_liveFrom false number (lineTexts S)
  have hrun := types_foldl p (Comment.liveFrom false number (lineTexts S))
  rw [hlive, htypes, foldl_read_append p.finished ([], none)] at hrun
  rw [definitions_eq_ofLive]
  exact congrArg Prod.fst hrun

/--
**The scan for types is a stream.**

The types that whole lines finish are the first types of every document that begins with these
lines. When the lines leave no block comment and no type open, the types of the text behind follow
them, as they are in that text alone.
-/
theorem definitions_append {P : Text} (hP : WholeLines P) (S : Text) :
    definitions P <+: definitions (P ++ S)
    ∧ (Comment.openAfter false (lineTexts P) = false → (progress P).current? = none →
        definitions (P ++ S) = definitions P ++ definitions S) := by
  constructor
  · unfold definitions
    rw [progress_append hP]
    exact finished_isPrefix_foldl _ _
  · intro hcomment hcurrent
    have hrun := types_foldl_of_closed hcurrent (1 + (lineTexts P).length) S
    unfold definitions at hrun ⊢
    rw [progress_append hP, hcomment]
    exact hrun

/-- Lines with a block comment, a type that is closed and a type that the next one interrupts. -/
def twoTypes : Text :=
  "\"\"\"\ntype Old \x7b\n\"\"\"\ntype A \x7b\n  id: ID\ntype B @table \x7b\n  at: Date\n\x7d\n".toList

/-- A text that starts with fields of no type. -/
def strayFields : Text := "  note: String\n\x7d\ntype C \x7b\n  n: Int\n\x7d".toList

theorem definitions_twoTypes_append :
    WholeLines twoTypes ∧ Comment.openAfter false (lineTexts twoTypes) = false
      ∧ (progress twoTypes).current? = none
      ∧ definitions twoTypes <+: definitions (twoTypes ++ strayFields)
      ∧ definitions (twoTypes ++ strayFields) = definitions twoTypes ++ definitions strayFields := by
  have hwhole : WholeLines twoTypes := by decide +kernel
  have hcomment : Comment.openAfter false (lineTexts twoTypes) = false := by decide +kernel
  have hcurrent : (progress twoTypes).current? = none := by decide +kernel
  obtain ⟨hfront, happend⟩ := definitions_append hwhole strayFields
  exact ⟨hwhole, hcomment, hcurrent, hfront, happend hcomment hcurrent⟩

end GqlScan.Schema
