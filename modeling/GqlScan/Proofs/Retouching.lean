import GqlScan.Proofs.LiveTypes
import GqlScan.Proofs.Registration

/-!
# Documents with the same live text

Whoever reads a document, the parser for its operation, the parser for its types or the scope of an
operation, looks at its live lines alone and at each without the blanks around it. A document can
therefore be retouched, in its indentation, its line comments and the inside of its block comments,
and nobody will notice.

Main statement: `readAlike_of_liveTexts`.
-/

namespace GqlScan

open Text

/-! ## Retouched documents -/

namespace Comment

/-- Lines that differ from some lines in the blanks around them, in line comments and in what stands
inside block comments. The flag says whether a block comment is open before the first of them. -/
inductive Retouched : Bool → List Text → List Text → Prop where
  | nil {inComment : Bool} : Retouched inComment [] []
  /-- a line is indented differently -/
  | indent {inComment : Bool} {l l' : Text} {ls ls' : List Text} : trim l = trim l' →
      Retouched (judge inComment l).inComment ls ls' → Retouched inComment (l :: ls) (l' :: ls')
  /-- a line comment is inserted -/
  | insert {inComment : Bool} {l : Text} {ls ls' : List Text} : isLineComment (trim l) = true →
      Retouched inComment ls ls' → Retouched inComment ls (l :: ls')
  /-- a line comment is deleted -/
  | delete {inComment : Bool} {l : Text} {ls ls' : List Text} : isLineComment (trim l) = true →
      Retouched inComment ls ls' → Retouched inComment (l :: ls) ls'
  /-- a line inside a block comment is rewritten -/
  | rewrite {l l' : Text} {ls ls' : List Text} : delimiterCount (trim l) = 0 →
      delimiterCount (trim l') = 0 → Retouched true ls ls' → Retouched true (l :: ls) (l' :: ls')

theorem judge_of_isLineComment {line : Text} (h : isLineComment (trim line) = true)
    (inComment : Bool) : judge inComment line = ⟨false, inComment⟩ := by
  unfold judge classify
  rw [if_pos h]

/-- Without a delimiter nothing inside a block comment is live. -/
theorem judge_inside {line : Text} (h : delimiterCount (trim line) = 0) :
    judge true line = ⟨false, true⟩ := by
  unfold judge classify
  rw [if_pos h]
  split
  · rfl
  · rfl

theorem judge_congr {l l' : Text} (h : trim l = trim l') (inComment : Bool) :
    judge inComment l = judge inComment l' := by
  unfold judge
  rw [h]

theorem liveTexts_cons_of_dead {inComment after : Bool} {line : Text} {rest : List Text}
    (h : judge inComment line = ⟨false, after⟩) :
    liveTexts inComment (line :: rest) = liveTexts after rest := by
  rw [liveTexts, h, if_neg Bool.false_ne_true]

/-- Retouching lines leaves their live text as it is. -/
theorem Retouched.liveTexts_eq {inComment : Bool} {ls ls' : List Text}
    (h : Retouched inComment ls ls') : liveTexts inComment ls = liveTexts inComment ls' := by
  induction h with
  | nil => rfl
  | @indent inComment l l' ls ls' htrim _ ih =>
    rw [liveTexts, liveTexts, ← judge_congr htrim, htrim, ih]
  | @insert inComment l ls ls' hl _ ih =>
    rw [liveTexts_cons_of_dead (judge_of_isLineComment hl inComment), ih]
  | @delete inComment l ls ls' hl _ ih =>
    rw [liveTexts_cons_of_dead (judge_of_isLineComment hl inComment), ih]
  | rewrite hl hl' _ ih =>
    rw [liveTexts_cons_of_dead (judge_inside hl), liveTexts_cons_of_dead (judge_inside hl'), ih]

end Comment

/-! ## Reading two documents -/

namespace Document

/-- Two documents are read alike when a fresh parser gives the same answers on both, with the same
nested types afterwards, and every operation name has the same lines in both. -/
structure ReadAlike (a b : Text) : Prop where
  operation : Parser.step .empty (.operation a) = Parser.step .empty (.operation b)
  schema : Parser.step .empty (.schema a) = Parser.step .empty (.schema b)
  scopes : ∀ target, Scope.linesOf a target = Scope.linesOf b target

theorem readAlike_of_liveText {a b : Text}
    (h : (Comment.liveLines a).map Comment.NumberedLine.text
      = (Comment.liveLines b).map Comment.NumberedLine.text) : ReadAlike a b := by
  have hlive : Comment.liveText a = Comment.liveText b := by
    rw [← Comment.map_text_liveLines, ← Comment.map_text_liveLines, h]
  refine ⟨?_, ?_, ?_⟩
  · have hoperation : operation? a = operation? b := by
      rw [operation?_eq_ofLive?, operation?_eq_ofLive?, hlive]
    rw [Parser.step_operation, Parser.step_operation, hoperation]
  · have hdefinitions : Schema.definitions a = Schema.definitions b := by
      rw [Schema.definitions_eq_read, Schema.definitions_eq_read, h]
    exact congrArg (fun definitions => (NestedTypes.empty, Parser.Answer.schema definitions))
      hdefinitions
  · intro target
    rw [Scope.linesOf_eq_governed, Scope.linesOf_eq_governed, hlive]

theorem map_text_eq_of_retouched {a b : Text}
    (h : Comment.Retouched false (lineTexts a) (lineTexts b)) :
    (Comment.liveLines a).map Comment.NumberedLine.text
      = (Comment.liveLines b).map Comment.NumberedLine.text := by
  rw [Comment.map_text_liveLines, Comment.map_text_liveLines]
  exact h.liveTexts_eq

/--
**A document is read through its live text alone.**

Two documents whose live lines are the same, trimmed and taken in order, are read alike: operation
and nested types, schema types, and the lines of every scope. This holds of any document and the
same document with other indentation, with line comments inserted and deleted, and with other lines
inside its block comments.
-/
theorem readAlike_of_liveTexts :
    (∀ a b : Text, (Comment.liveLines a).map Comment.NumberedLine.text
        = (Comment.liveLines b).map Comment.NumberedLine.text → ReadAlike a b)
    ∧ ∀ a b : Text, Comment.Retouched false (lineTexts a) (lineTexts b) →
        (Comment.liveLines a).map Comment.NumberedLine.text
            = (Comment.liveLines b).map Comment.NumberedLine.text
          ∧ ReadAlike a b := by
  refine ⟨fun a b h => readAlike_of_liveText h, ?_⟩
  intro a b h
  have hlive := map_text_eq_of_retouched h
  exact ⟨hlive, readAlike_of_liveText hlive⟩

/-- A document with a block comment and a line comment. -/
def draftSource : Text :=
  "\"\"\"\nquery Old \x7b\n\"\"\"\n# the key\nquery Q \x7b\nid\n\x7d\n".toList

/-- `draftSource` with another line inside the block comment, the line comment moved and the field
indented. -/
def tidySource : Text :=
  "\"\"\"\n# soon: type Movie \x7b\n\"\"\"\nquery Q \x7b\n\t  id\n # the key\n\x7d\n".toList

theorem readAlike_draftSource :
    Comment.Retouched false (lineTexts draftSource) (lineTexts tidySource)
      ∧ (Comment.liveLines draftSource).map Comment.NumberedLine.text
          = (Comment.liveLines tidySource).map Comment.NumberedLine.text
      ∧ ReadAlike draftSource tidySource := by
  have hdraft : lineTexts draftSource
      = ["\"\"\"".toList, "query Old \x7b".toList, "\"\"\"".toList, "# the key".toList,
        "query Q \x7b".toList, "id".toList, "\x7d".toList] := by decide +kernel
  have htidy : lineTexts tidySource
      = ["\"\"\"".toList, "# soon: type Movie \x7b".toList, "\"\"\"".toList,
        "query Q \x7b".toList, "\t  id".toList, " # the key".toList, "\x7d".toList] := by
    decide +kernel
  have hretouched : Comment.Retouched false (lineTexts draftSource) (lineTexts tidySource) := by
    rw [hdraft, htidy]
    refine .indent rfl (.rewrite (by decide +kernel) (by decide +kernel) ?_)
    refine .indent rfl (.delete (by decide +kernel) (.indent rfl ?_))
    exact .indent (by decide +kernel) (.insert (by decide +kernel) (.indent rfl .nil))
  have hlive := (readAlike_of_liveTexts.2 _ _ hretouched).1
  exact ⟨hretouched, hlive, readAlike_of_liveTexts.1 _ _ hlive⟩

end Document

end GqlScan
