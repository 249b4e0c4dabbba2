import GqlScan.Document
import GqlScan.Proofs.Lines

/-!
# An operation is read off the live text

The search for a header, the scope of the operation and the collection of variables and fields each
follow the comments of a document for themselves. They see the same: the operation depends on the
trimmed live lines alone, and the lines of its scope are those that the last header before them
gives to it.

Main statements: `operation?_eq_ofLive?`, and `ofLive?_of_brace` for a document whose first live
line holds its only header.
-/

namespace GqlScan

open Text

namespace Comment

/-- The trimmed live ones of some lines. -/
def liveTexts (inComment : Bool) : List Text → List Text
  | [] => []
  | line :: rest =>
    if (judge inComment line).live then
      trim line :: liveTexts (judge inComment line).inComment rest
    else liveTexts (judge inComment line).inComment rest

theorem map_text_liveFrom (inComment : Bool) (number : Nat) (lines : List Text) :
    (liveFrom inComment number lines).map NumberedLine.text = liveTexts inComment lines := by
  induction lines generalizing inComment number with
  | nil => rfl
  | cons line rest ih =>
    unfold liveFrom liveTexts
    dsimp only
    split
    · rw [List.map_cons, ih]
    · exact ih _ _

theorem judge_of_live {line : Text} (hline : isLineComment (trim line) = false)
    (hcount : delimiterCount (trim line) = 0) : judge false line = ⟨true, false⟩ := by
  unfold judge classify
  rw [if_neg (Bool.eq_false_iff.1 hline), if_pos hcount]
  rfl

/-- Lines are all live when none of them is a line comment or opens a block comment. -/
theorem liveTexts_of_live {lines : List Text}
    (h : ∀ l ∈ lines, isLineComment (trim l) = false ∧ delimiterCount (trim l) = 0) :
    liveTexts false lines = lines.map trim := by
  induction lines with
  | nil => rfl
  | cons l lines ih =>
    obtain ⟨hline, hcount⟩ := h l List.mem_cons_self
    rw [liveTexts, judge_of_live hline hcount, if_pos rfl, List.map_cons,
      ih fun m hm => h m (List.mem_cons_of_mem l hm)]

/-- The trimmed live lines of a document. -/
def liveText (content : Text) : List Text := liveTexts false (lineTexts content)

theorem map_text_liveLines (content : Text) :
    (liveLines content).map NumberedLine.text = liveText content :=
  map_text_liveFrom false 1 (lineTexts content)

theorem openAfter_cons (inComment : Bool) (line : Text) (rest : List Text) :
    openAfter inComment (line :: rest) = openAfter (judge inComment line).inComment rest := rfl

/-- The comment state is carried from some lines to the next. -/
theorem liveTexts_append (inComment : Bool) (xs ys : List Text) :
    liveTexts inComment (xs ++ ys)
      = liveTexts inComment xs ++ liveTexts (openAfter inComment xs) ys := by
  induction xs generalizing inComment with
  | nil => rfl
  | cons x xs ih =>
    rw [List.cons_append, liveTexts, liveTexts, openAfter_cons, ih]
    split
    · rw [List.cons_append]
    · rfl

/-- No block comment is open behind lines that are all live. -/
theorem openAfter_of_live {lines : List Text}
    (h : ∀ l ∈ lines, isLineComment (trim l) = false ∧ delimiterCount (trim l) = 0) :
    openAfter false lines = false := by
  induction lines with
  | nil => rfl
  | cons l lines ih =>
    obtain ⟨hline, hcount⟩ := h l List.mem_cons_self
    rw [openAfter_cons, judge_of_live hline hcount]
    exact ih fun m hm => h m (List.mem_cons_of_mem l hm)

/-- A text of whole lines behind which no block comment is open. -/
structure SelfContained (t : Text) : Prop where
  wholeLines : WholeLines t
  noComment : openAfter false (lineTexts t) = false

/-- Behind a self-contained text a document has the live lines that it has on its own. -/
theorem SelfContained.liveText_append {t : Text} (ht : SelfContained t) (u : Text) :
    liveText (t ++ u) = liveText t ++ liveText u := by
  unfold liveText
  rw [lineTexts_append ht.wholeLines, liveTexts_append, ht.noComment]

end Comment

namespace Scope

/-- Whether the scope of `target` is open at a live line, given whether it was before. -/
def opens (target : Text) (inside : Bool) (line : Text) : Bool :=
  match Header.find? line with
  | some h => h.name == target
  | none => inside

/-- The ones of some live lines that the scope of `target` takes. -/
def governed (target : Text) (inside : Bool) : List Text → List Text
  | [] => []
  | line :: rest =>
    if opens target inside line then line :: governed target true rest
    else governed target false rest

theorem governed_cons (target : Text) (inside : Bool) (line : Text) (rest : List Text) :
    governed target inside (line :: rest)
      = if opens target inside line then line :: governed target true rest
        else governed target false rest := rfl

/-- Lines without a header leave an open scope open. -/
theorem governed_of_no_header {target : Text} {lines : List Text}
    (h : ∀ l ∈ lines, Header.find? l = none) : governed target true lines = lines := by
  induction lines with
  | nil => rfl
  | cons l lines ih =>
    have hopens : opens target true l = true := by
      unfold opens
      rw [h l List.mem_cons_self]
    rw [governed_cons, if_pos hopens, ih fun m hm => h m (List.mem_cons_of_mem l hm)]

theorem enter_inside (target : Text) (s : Scope) (line : Text) :
    (s.enter target line).inside = opens target s.inside line := by
  unfold enter opens
  cases Header.find? line <;> rfl

theorem enter_inComment (target : Text) (s : Scope) (line : Text) :
    (s.enter target line).inComment = s.inComment := by
  unfold enter
  cases Header.find? line <;> rfl

theorem advance_inComment (target : Text) (s : Scope) (line : Text) :
    (s.advance target line).1.inComment = s.inComment := by
  unfold advance
  dsimp only
  split
  · exact enter_inComment target s line
  · exact enter_inComment target s line

theorem advance_inside (target : Text) (s : Scope) (line : Text) :
    (s.advance target line).1.inside = opens target s.inside line := by
  unfold advance
  dsimp only
  split
  · exact enter_inside target s line
  · exact enter_inside target s line

/-- A live line belongs to the operation exactly when its scope is open there. -/
theorem advance_belongs (target : Text) (s : Scope) (line : Text) :
    (s.advance target line).2.belongs = opens target s.inside line := by
  unfold advance
  dsimp only
  rw [enter_inside]
  cases opens target s.inside line with
  | false => rfl
  | true =>
    rw [if_pos rfl]
    dsimp only
    split <;> rfl

theorem collect_eq_governed (target : Text) (s : Scope) (lines : List Text) :
    collect target s lines = governed target s.inside (Comment.liveTexts s.inComment lines) := by
  -- a dead line changes the comment state alone, a live one everything but the comment state
  induction lines generalizing s with
  | nil => rfl
  | cons line rest ih =>
    unfold collect Comment.liveTexts
    dsimp only
    rw [ih]
    unfold feed
    dsimp only
    by_cases hlive : (Comment.judge s.inComment line).live = true
    · rw [if_pos hlive, if_pos hlive, advance_belongs, advance_inside, advance_inComment]
      rw [governed_cons]
      cases opens target s.inside (trim line) <;> rfl
    · rw [if_neg hlive, if_neg hlive]
      rfl

/-- The lines of an operation are those of the live text that its scope takes. -/
theorem linesOf_eq_governed (content target : Text) :
    linesOf content target = governed target false (Comment.liveText content) :=
  collect_eq_governed target {} (lineTexts content)

end Scope

namespace Document

/-- The operation in some live lines. -/
def ofLive? (live : List Text) : Option Operation :=
  (live.findSome? Header.find?).map fun header =>
    operationOf header (Scope.governed header.name false live)

/-- The header of a document is the first one in its live text. -/
theorem header?_eq (content : Text) :
    header? content = (Comment.liveText content).findSome? Header.find? := by
  unfold header?
  rw [← Comment.map_text_liveLines, List.findSome?_map]
  rfl

/-- **The operation of a document is that of its live text.** -/
theorem operation?_eq_ofLive? (content : Text) :
    operation? content = ofLive? (Comment.liveText content) := by
  unfold operation? ofLive?
  rw [header?_eq]
  congr 1
  funext header
  rw [Scope.linesOf_eq_governed]

/-- With one header, in the first line, the operation has all lines. -/
theorem ofLive?_cons {first : Text} {rest : List Text} {header : Header}
    (hfirst : Header.find? first = some header) (hrest : ∀ l ∈ rest, Header.find? l = none) :
    ofLive? (first :: rest) = some (operationOf header (first :: rest)) := by
  have hopens : Scope.opens header.name false first = true := by
    unfold Scope.opens
    rw [hfirst]
    exact beq_self_eq_true _
  unfold ofLive?
  rw [List.findSome?_cons, hfirst]
  dsimp only
  rw [Option.map_some, Scope.governed_cons, if_pos hopens, Scope.governed_of_no_header hrest]

/-- When a brace follows the header, the block of the operation starts behind it. -/
theorem ofLive?_of_brace {first after : Text} {rest : List Text} {header : Header}
    (hfirst : Header.locate? first = some (header, after))
    (hrest : ∀ l ∈ rest, Header.find? l = none) (hmem : '{' ∈ after) :
    ofLive? (first :: rest)
      = some ⟨header.kind, header.name, Variable.inLines (first :: rest),
          Selection.fields header.name (Block.take (Text.after '{' after) rest).body⟩ := by
  have hfind : Header.find? first = some header := by
    rw [Header.find?, hfirst, Option.map_some]
  have hafter : Header.after first = after := by
    rw [Header.after, hfirst]
  have hset : selectionSet? (withoutHeader (first :: rest))
      = some (Block.take (Text.after '{' after) rest) := by
    rw [withoutHeader, selectionSet?, hafter, if_pos hmem]
  rw [ofLive?_cons hfind hrest]
  unfold operationOf fieldsOf
  rw [hset]

end Document

end GqlScan
