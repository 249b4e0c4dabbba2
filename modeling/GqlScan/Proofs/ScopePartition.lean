import Mathlib.Data.List.Induction
import Mathlib.Data.Set.Subsingleton
import GqlScan.Proofs.CommentParity
import GqlScan.Proofs.Isolation

/-!
# Scopes divide the live lines

For every operation name the document is scanned anew, with a flag that headers set and clear. All
these scans together divide the live lines: a line belongs to the name in the last header up to and
including the line, and to no other. Lines in front of the first header belong to none.

The flag behind some lines depends on the last header among the live ones alone (`opensAfter_eq`).
Which lines a name receives follows from that, in whatever order the headers come: a scope that is
opened a second time goes on with its lines.

Main statement: `belongs_iff_governed`.
-/

namespace GqlScan

open Text

namespace Comment

theorem number_le_of_mem_liveFrom {inComment : Bool} {number : Nat} {lines : List Text}
    {l : NumberedLine} (h : l ∈ liveFrom inComment number lines) :
    number ≤ l.number ∧ l.number < number + lines.length := by
  obtain ⟨i, line, hi, rfl, -⟩ := mem_liveFrom_iff.1 h
  obtain ⟨hlt, -⟩ := List.getElem?_eq_some_iff.1 hi
  exact ⟨Nat.le_add_right _ _, Nat.add_lt_add_left hlt _⟩

/-- The live lines up to a number are those of the lines up to there. -/
theorem filter_number_liveFrom (inComment : Bool) (number i : Nat) (lines : List Text) :
    (liveFrom inComment number lines).filter (fun l => l.number ≤ number + i)
      = liveFrom inComment number (lines.take (i + 1)) := by
  have hsplit := liveFrom_append inComment number (lines.take (i + 1)) (lines.drop (i + 1))
  rw [List.take_append_drop] at hsplit
  rw [hsplit, List.filter_append, List.filter_eq_self.2, List.filter_eq_nil_iff.2,
    List.append_nil]
  · intro l hl
    have hnumber := number_le_of_mem_liveFrom hl
    -- behind the cut there is a line only if there are that many in front of it
    obtain ⟨j, line, hj, -, -⟩ := mem_liveFrom_iff.1 hl
    have hlong : i + 1 ≤ lines.length := by
      by_contra hshort
      rw [List.drop_eq_nil_of_le (by omega)] at hj
      cases hj
    rw [List.length_take_of_le hlong] at hnumber
    simp only [decide_eq_true_eq]
    omega
  · intro l hl
    have hnumber := number_le_of_mem_liveFrom hl
    rw [List.length_take] at hnumber
    simp only [decide_eq_true_eq]
    omega

/-- A further line adds its text to the live text when it is live. -/
theorem liveTexts_take_succ {lines : List Text} {i : Nat} {line : Text}
    (h : lines[i]? = some line) (inComment : Bool) :
    liveTexts inComment (lines.take (i + 1))
      = liveTexts inComment (lines.take i)
        ++ if (judge (openAfter inComment (lines.take i)) line).live then [trim line] else [] := by
  rw [List.take_add_one, h, Option.toList_some, liveTexts_append]
  rfl

end Comment

namespace Scope

open Comment

/-! ## The scope behind some lines -/

/-- The scope behind some lines of a document. -/
def after (target : Text) (s : Scope) (lines : List Text) : Scope :=
  lines.foldl (fun s line => (s.feed target line).1) s

theorem after_cons (target : Text) (s : Scope) (line : Text) (rest : List Text) :
    after target s (line :: rest) = after target (s.feed target line).1 rest := rfl

theorem feed_inComment (target : Text) (s : Scope) (line : Text) :
    (s.feed target line).1.inComment = (judge s.inComment line).inComment := by
  unfold feed
  dsimp only
  split
  · exact advance_inComment target _ _
  · rfl

theorem feed_inside (target : Text) (s : Scope) (line : Text) :
    (s.feed target line).1.inside
      = if (judge s.inComment line).live then opens target s.inside (trim line)
        else s.inside := by
  unfold feed
  dsimp only
  split
  · exact advance_inside target _ _
  · rfl

/-- A line belongs to the operation when it is live and the scope is open there. -/
theorem feed_belongs (target : Text) (s : Scope) (line : Text) :
    (s.feed target line).2.belongs
      = ((judge s.inComment line).live && opens target s.inside (trim line)) := by
  unfold feed
  dsimp only
  cases (judge s.inComment line).live with
  | true => rw [if_pos rfl, advance_belongs, Bool.true_and]
  | false => rfl

theorem after_inComment (target : Text) (s : Scope) (lines : List Text) :
    (after target s lines).inComment = openAfter s.inComment lines := by
  induction lines generalizing s with
  | nil => rfl
  | cons line rest ih => rw [after_cons, ih, feed_inComment, openAfter_cons]

theorem after_inside (target : Text) (s : Scope) (lines : List Text) :
    (after target s lines).inside
      = opensAfter target s.inside (liveTexts s.inComment lines) := by
  induction lines generalizing s with
  | nil => rfl
  | cons line rest ih =>
    rw [after_cons, ih, feed_inside, feed_inComment, liveTexts]
    split
    · rw [opensAfter_cons]
    · rfl

theorem getElem?_standings (target : Text) (s : Scope) (lines : List Text) (i : Nat) :
    (standings target s lines)[i]?
      = lines[i]?.map fun line => ((after target s (lines.take i)).feed target line).2 := by
  induction lines generalizing s i with
  | nil => rfl
  | cons line rest ih =>
    cases i with
    | zero => rfl
    | succ i =>
      rw [standings, List.getElem?_cons_succ, ih, List.getElem?_cons_succ, List.take_succ_cons]
      rfl

theorem opensAfter_concat (target : Text) (inside : Bool) (lines : List Text) (line : Text) :
    opensAfter target inside (lines ++ [line])
      = opens target (opensAfter target inside lines) line := by
  unfold opensAfter
  rw [List.foldl_append]
  rfl

/-- The line at an index belongs to the operation when it is live and the scope is open behind the
live lines up to and including it. -/
theorem any_belongs_standings {target : Text} {lines : List Text} {i : Nat} :
    (standings target {} lines)[i]?.any Standing.belongs = true
      ↔ ∃ line, lines[i]? = some line
        ∧ (judge (openAfter false (lines.take i)) line).live = true
        ∧ opensAfter target false (liveTexts false (lines.take (i + 1))) = true := by
  rw [getElem?_standings]
  cases hline : lines[i]? with
  | none => simp
  | some line =>
    rw [Option.map_some, Option.any_some, feed_belongs, after_inComment, after_inside,
      liveTexts_take_succ hline, Bool.and_eq_true]
    simp only [Option.some.injEq, exists_eq_left']
    refine and_congr_right fun hlive => ?_
    rw [if_pos hlive, opensAfter_concat]

/-! ## The last header -/

/-- The name in the last header of some live lines. -/
def lastName? (lines : List Text) : Option Text :=
  (lines.filterMap Header.find?).getLast?.map Header.name

/-- **The last header decides whether a scope is open**, and without a header it stays as it was. -/
theorem opensAfter_eq (target : Text) (inside : Bool) (lines : List Text) :
    opensAfter target inside lines = (lastName? lines).elim inside (· == target) := by
  unfold lastName?
  induction lines generalizing inside with
  | nil => rfl
  | cons line rest ih =>
    rw [opensAfter_cons, ih]
    unfold opens
    cases h : Header.find? line with
    | none => rw [List.filterMap_cons_none h]
    | some header =>
      rw [List.filterMap_cons_some h, List.getLast?_cons]
      cases (rest.filterMap Header.find?).getLast? <;> rfl

theorem opensAfter_false_iff {target : Text} {lines : List Text} :
    opensAfter target false lines = true ↔ lastName? lines = some target := by
  rw [opensAfter_eq]
  cases lastName? lines with
  | none => simp
  | some name => simp

/-- A line of a document is governed by the name in the last header up to and including it. -/
def GovernedBy (content : Text) (line : NumberedLine) (name : Text) : Prop :=
  ∃ head ∈ liveLines content, head.number ≤ line.number
    ∧ (∃ kind, Header.find? head.text = some ⟨kind, name⟩)
    ∧ ∀ l ∈ liveLines content, head.number < l.number → l.number ≤ line.number →
      Header.find? l.text = none

/-- The name in the last header up to a number. -/
def governor? (lines : List NumberedLine) (number : Nat) : Option Text :=
  lastName? ((lines.filter fun l => l.number ≤ number).map NumberedLine.text)

theorem lastName?_eq_some_iff {lines : List NumberedLine}
    (hlines : lines.Pairwise fun l m => l.number < m.number) {name : Text} :
    lastName? (lines.map NumberedLine.text) = some name
      ↔ ∃ head ∈ lines, (∃ kind, Header.find? head.text = some ⟨kind, name⟩)
        ∧ ∀ l ∈ lines, head.number < l.number → Header.find? l.text = none := by
  induction lines using List.reverseRecOn with
  | nil => simp [lastName?]
  | append_singleton lines last ih =>
    obtain ⟨hfront, -, hlast⟩ := List.pairwise_append.1 hlines
    have hlater : ∀ l ∈ lines, l.number < last.number := fun l hl => hlast l hl last (by simp)
    cases h : Header.find? last.text with
    | none =>
      have hname : lastName? ((lines ++ [last]).map NumberedLine.text)
          = lastName? (lines.map NumberedLine.text) := by
        simp [lastName?, h]
      rw [hname, ih hfront]
      constructor
      · rintro ⟨head, hhead, hkind, hnone⟩
        refine ⟨head, List.mem_append_left _ hhead, hkind, fun l hl hlt => ?_⟩
        rcases List.mem_append.1 hl with hl | hl
        · exact hnone l hl hlt
        · rw [List.mem_singleton.1 hl, h]
      · rintro ⟨head, hhead, ⟨kind, hkind⟩, hnone⟩
        rcases List.mem_append.1 hhead with hhead | hhead
        · exact ⟨head, hhead, ⟨kind, hkind⟩, fun l hl => hnone l (List.mem_append_left _ hl)⟩
        · rw [List.mem_singleton.1 hhead, h] at hkind
          cases hkind
    | some header =>
      have hname : lastName? ((lines ++ [last]).map NumberedLine.text) = some header.name := by
        simp [lastName?, h]
      rw [hname]
      constructor
      · rintro ⟨⟩
        refine ⟨last, by simp, ⟨header.kind, h⟩, fun l hl hlt => ?_⟩
        rcases List.mem_append.1 hl with hl | hl
        · have := hlater l hl
          omega
        · rw [List.mem_singleton.1 hl] at hlt
          omega
      · rintro ⟨head, hhead, ⟨kind, hkind⟩, hnone⟩
        rcases List.mem_append.1 hhead with hhead | hhead
        · -- a header in front is not the last one
          have hlost := hnone last (by simp) (hlater head hhead)
          rw [h] at hlost
          cases hlost
        · rw [List.mem_singleton.1 hhead, h] at hkind
          cases hkind
          rfl

theorem governor?_eq_some_iff {content : Text} {line : NumberedLine} {name : Text} :
    governor? (liveLines content) line.number = some name ↔ GovernedBy content line name := by
  have hincreasing : ((liveLines content).filter fun l => l.number ≤ line.number).Pairwise
      fun l m => l.number < m.number := (pairwise_liveFrom false 1 _).filter _
  unfold governor? GovernedBy
  rw [lastName?_eq_some_iff hincreasing]
  simp only [List.mem_filter, decide_eq_true_eq]
  constructor
  · rintro ⟨head, ⟨hmem, hle⟩, hkind, hnone⟩
    exact ⟨head, hmem, hle, hkind, fun l hl hlt hup => hnone l ⟨hl, hup⟩ hlt⟩
  · rintro ⟨head, hmem, hle, hkind, hnone⟩
    exact ⟨head, ⟨hmem, hle⟩, hkind, fun l hl hlt => hnone l hl.1 hlt hl.2⟩

instance (content : Text) (line : NumberedLine) (name : Text) :
    Decidable (GovernedBy content line name) :=
  decidable_of_iff _ governor?_eq_some_iff

/-! ## The lines of a name -/

/-- The scope of `target` takes from some live lines those that it governs. -/
theorem governed_eq_filter (target : Text) {lines : List NumberedLine}
    (hlines : lines.Pairwise fun l m => l.number < m.number) :
    governed target false (lines.map NumberedLine.text)
      = (lines.filter fun line => governor? lines line.number = some target).map
          NumberedLine.text := by
  induction lines using List.reverseRecOn with
  | nil => rfl
  | append_singleton lines last ih =>
    obtain ⟨hfront, -, hlast⟩ := List.pairwise_append.1 hlines
    have hlater : ∀ l ∈ lines, l.number < last.number := fun l hl => hlast l hl last (by simp)
    -- the last line governs no earlier one, and all lines count for the last
    have hearlier : ∀ l ∈ lines, governor? (lines ++ [last]) l.number = governor? lines l.number :=
      fun l hl => by simp [governor?, hlater l hl]
    have hall : governor? (lines ++ [last]) last.number
        = lastName? ((lines ++ [last]).map NumberedLine.text) := by
      unfold governor?
      rw [List.filter_eq_self.2 fun l hl => ?_]
      rcases List.mem_append.1 hl with hl | hl
      · simpa using (hlater l hl).le
      · simp [List.mem_singleton.1 hl]
    have hfilter : lines.filter (fun l => governor? (lines ++ [last]) l.number = some target)
        = lines.filter fun l => governor? lines l.number = some target :=
      List.filter_congr fun l hl => by rw [hearlier l hl]
    rw [List.map_append, governed_append, ih hfront, List.filter_append, hfilter, List.map_append]
    congr 1
    rw [List.map_singleton, governed_cons, ← opensAfter_concat, List.filter_singleton, hall,
      List.map_append, List.map_singleton]
    by_cases hname : lastName? (lines.map NumberedLine.text ++ [last.text]) = some target
    · rw [if_pos (opensAfter_false_iff.2 hname), decide_eq_true hname]
      rfl
    · rw [if_neg (mt opensAfter_false_iff.1 hname), decide_eq_false hname]
      rfl

theorem governedBy_iff_opens {content text target : Text} {i : Nat} :
    GovernedBy content ⟨i + 1, text⟩ target
      ↔ opensAfter target false (liveTexts false ((lineTexts content).take (i + 1))) = true := by
  rw [← governor?_eq_some_iff, opensAfter_false_iff, ← map_text_liveFrom false 1,
    ← filter_number_liveFrom, Nat.add_comm 1 i]
  rfl

/-- The line at an index belongs to the operation when it is live and governed by its name. -/
theorem belongs_standings_iff {content target : Text} {i : Nat} :
    (standings target {} (lineTexts content))[i]?.any Standing.belongs = true
      ↔ ∃ line ∈ liveLines content, line.number = i + 1 ∧ GovernedBy content line target := by
  rw [any_belongs_standings]
  constructor
  · rintro ⟨line, hline, hlive, hopen⟩
    refine ⟨⟨i + 1, trim line⟩, mem_liveFrom_iff.2 ⟨i, line, hline, ?_, hlive⟩, rfl,
      governedBy_iff_opens.2 hopen⟩
    rw [Nat.add_comm]
  · rintro ⟨⟨number, text⟩, hmem, hnumber, hname⟩
    dsimp only at hnumber
    subst hnumber
    obtain ⟨j, line, hline, heq, hlive⟩ := mem_liveFrom_iff.1 hmem
    have hj : i = j := by
      have hnumbers := congrArg NumberedLine.number heq
      dsimp only at hnumbers
      omega
    subst hj
    exact ⟨line, hline, hlive, governedBy_iff_opens.1 hname⟩

theorem linesOf_eq_filter (content target : Text) :
    linesOf content target
      = ((liveLines content).filter fun line => GovernedBy content line target).map
          NumberedLine.text := by
  have hfilter := governed_eq_filter target (pairwise_liveFrom false 1 (lineTexts content))
  rw [map_text_liveFrom] at hfilter
  rw [linesOf_eq_governed]
  unfold liveText
  rw [hfilter]
  exact congrArg _ (List.filter_congr fun line _ => decide_eq_decide.2 governor?_eq_some_iff)

/--
**The scopes of all names divide the live lines of a document.**

A line contributes to the scope of a name exactly when it is live and governed by that name, the one
in the last header up to and including the line; no line is governed by two names. So the lines of a
name are the live lines that it governs, trimmed and in the order of the document.
-/
theorem belongs_iff_governed (content : Text) :
    (∀ (target : Text) (i : Nat),
      (standings target {} (lineTexts content))[i]?.any Standing.belongs = true
        ↔ ∃ line ∈ liveLines content, line.number = i + 1 ∧ GovernedBy content line target)
    ∧ (∀ line : NumberedLine, {name | GovernedBy content line name}.Subsingleton)
    ∧ ∀ target : Text, linesOf content target
        = ((liveLines content).filter fun line => GovernedBy content line target).map
            NumberedLine.text := by
  refine ⟨fun _ _ => belongs_standings_iff, fun line a ha b hb => ?_, linesOf_eq_filter content⟩
  have hsome := (governor?_eq_some_iff.2 ha).symm.trans (governor?_eq_some_iff.2 hb)
  exact Option.some.inj hsome

end Scope

end GqlScan
