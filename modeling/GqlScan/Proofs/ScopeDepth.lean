import Mathlib.Algebra.Ring.Int.Defs
import GqlScan.Proofs.LineDepth
import GqlScan.Proofs.ScopePartition

/-!
# The depth of a scope in closed form

The depth that a scope carries from line to line never falls below zero: closing braces without a
partner are forgotten on the line where they stand. What is left behind some lines is therefore no
total. It is the greatest of the sums over their ends, that is over the last line, the last two
lines and so on, where the sum over no lines counts as zero.

A header starts the count anew, whatever its name, and lines that are not live are not counted. So
the standing of a line follows from the live lines since the last header and nothing else.

Main statements: `isGreatest_depth_after`, the depth behind any lines, and `feed_closed_form`, the
standing of the next one.
-/

namespace GqlScan

open Text

/-- Trimming takes nothing but blanks away. -/
theorem Text.mem_trim_iff {c : Char} (hc : isBlank c = false) (line : Text) :
    c ∈ trim line ↔ c ∈ line := by
  obtain ⟨a, b, hline, ha, hb⟩ := exists_trim_append line
  constructor
  · intro h
    rw [hline]
    simp [h]
  · intro h
    rw [hline] at h
    simpa [ha.not_mem hc, hb.not_mem hc] using h

namespace Scope

open Comment

/-! ## Sums over the ends of some lines -/

/-- What the ends of some lines leave open: for every end the sum of the surpluses of its lines. -/
def endSums (lines : List Text) : Set Int :=
  {n | ∃ tail, tail <:+ lines ∧ (tail.map Block.surplus).sum = n}

theorem zero_mem_endSums (lines : List Text) : 0 ∈ endSums lines :=
  ⟨[], List.nil_suffix, rfl⟩

/-- An end of some lines and one more is empty, or it is an end of the lines and one more. -/
theorem mem_endSums_concat {lines : List Text} {line : Text} {n : Int} :
    n ∈ endSums (lines ++ [line])
      ↔ n = 0 ∨ ∃ m ∈ endSums lines, n = m + Block.surplus line := by
  constructor
  · intro hn
    obtain ⟨tail, htail, rfl⟩ := hn
    rcases List.suffix_concat_iff.1 htail with rfl | ⟨t, rfl, ht⟩
    · exact Or.inl rfl
    · exact Or.inr ⟨_, ⟨t, ht, rfl⟩, by simp⟩
  · intro hn
    rcases hn with rfl | ⟨m, ⟨t, ht, rfl⟩, rfl⟩
    · exact zero_mem_endSums _
    · exact ⟨t ++ [line], List.suffix_concat_iff.2 (Or.inr ⟨t, rfl, ht⟩), by simp⟩

theorem isGreatest_endSums_nil : IsGreatest (endSums []) 0 := by
  refine ⟨zero_mem_endSums [], ?_⟩
  intro n hn
  obtain ⟨tail, htail, rfl⟩ := hn
  rw [List.suffix_nil.1 htail]
  simp

/-- **Counting on with what is left, and never below zero, gives the greatest sum again.** -/
theorem isGreatest_endSums_concat {lines : List Text} {depth : Nat}
    (h : IsGreatest (endSums lines) (depth : Int)) (line : Text) :
    IsGreatest (endSums (lines ++ [line]))
      ((depth + line.count '{' - line.count '}' : Nat) : Int) := by
  constructor
  · rw [mem_endSums_concat]
    by_cases hlow : depth + line.count '{' ≤ line.count '}'
    · left
      omega
    · right
      refine ⟨depth, h.1, ?_⟩
      unfold Block.surplus
      omega
  · intro n hn
    rcases mem_endSums_concat.1 hn with rfl | ⟨m, hm, rfl⟩
    · exact Int.natCast_nonneg _
    · have hle : m ≤ (depth : Int) := h.2 hm
      unfold Block.surplus
      omega

/-- Something is left exactly when some end sums up to more than zero. -/
theorem pos_iff_of_isGreatest {lines : List Text} {depth : Nat}
    (h : IsGreatest (endSums lines) (depth : Int)) :
    0 < depth ↔ ∃ tail, tail <:+ lines ∧ 0 < (tail.map Block.surplus).sum := by
  constructor
  · intro hpos
    obtain ⟨tail, htail, hsum⟩ := h.1
    exact ⟨tail, htail, by omega⟩
  · intro hex
    obtain ⟨tail, htail, hsum⟩ := hex
    have hle : (tail.map Block.surplus).sum ≤ (depth : Int) := h.2 ⟨tail, htail, rfl⟩
    omega

/-! ## The lines since the last header -/

/-- The last header among some live lines names `target`, and `since` are the lines from the one
with this header on. -/
def SinceHeader (target : Text) (live since : List Text) : Prop :=
  ∃ front head rest kind, live = front ++ since ∧ since = head :: rest
    ∧ Header.find? head = some ⟨kind, target⟩ ∧ ∀ line ∈ rest, Header.find? line = none

theorem not_sinceHeader_nil {target : Text} {since : List Text} :
    ¬ SinceHeader target [] since := by
  intro h
  obtain ⟨front, head, rest, kind, hlive, rfl, -⟩ := h
  simp at hlive

/-- One more live line starts anew with its header, or belongs to the lines since the last one. -/
theorem sinceHeader_concat_iff {target line : Text} {live since : List Text} :
    SinceHeader target (live ++ [line]) since
      ↔ ((∃ kind, Header.find? line = some ⟨kind, target⟩) ∧ since = [line])
        ∨ (Header.find? line = none
          ∧ ∃ before, SinceHeader target live before ∧ since = before ++ [line]) := by
  constructor
  · intro h
    obtain ⟨front, head, rest, kind, hlive, rfl, hhead, hrest⟩ := h
    rcases List.eq_nil_or_concat' rest with rfl | ⟨init, last, rfl⟩
    · obtain ⟨rfl, hline⟩ := List.append_inj' hlive rfl
      obtain rfl := List.head_eq_of_cons_eq hline
      exact Or.inl ⟨⟨kind, hhead⟩, rfl⟩
    · rw [← List.cons_append, ← List.append_assoc] at hlive
      obtain ⟨rfl, hline⟩ := List.append_inj' hlive rfl
      obtain rfl := List.head_eq_of_cons_eq hline
      refine Or.inr ⟨hrest line (by simp), head :: init, ?_, rfl⟩
      exact ⟨front, head, init, kind, rfl, rfl, hhead, fun l hl => hrest l (by simp [hl])⟩
  · intro h
    rcases h with ⟨⟨kind, hkind⟩, rfl⟩ | ⟨hnone, before, hbefore, rfl⟩
    · exact ⟨live, line, [], kind, rfl, rfl, hkind, by simp⟩
    · obtain ⟨front, head, rest, kind, rfl, rfl, hhead, hrest⟩ := hbefore
      refine ⟨front, head, rest ++ [line], kind, by simp, by simp, hhead, ?_⟩
      intro l hl
      rcases List.mem_append.1 hl with hl | hl
      · exact hrest l hl
      · rw [List.mem_singleton.1 hl]
        exact hnone

/-- The lines since the last header are determined. -/
theorem SinceHeader.unique {target : Text} {live since since' : List Text}
    (h : SinceHeader target live since) (h' : SinceHeader target live since') :
    since = since' := by
  induction live using List.reverseRecOn generalizing since since' with
  | nil => exact absurd h not_sinceHeader_nil
  | append_singleton live line ih =>
    rcases sinceHeader_concat_iff.1 h with ⟨⟨kind, hkind⟩, rfl⟩ | ⟨hnone, before, hbefore, rfl⟩
    · rcases sinceHeader_concat_iff.1 h' with ⟨-, rfl⟩ | ⟨hnone, -⟩
      · rfl
      · rw [hkind] at hnone
        cases hnone
    · rcases sinceHeader_concat_iff.1 h' with ⟨⟨kind, hkind⟩, -⟩ | ⟨-, before', hbefore', rfl⟩
      · rw [hkind] at hnone
        cases hnone
      · rw [ih hbefore hbefore']

/-- There are such lines exactly when the scope of `target` is open behind the live lines. -/
theorem exists_sinceHeader_iff {target : Text} {live : List Text} :
    (∃ since, SinceHeader target live since) ↔ opensAfter target false live = true := by
  induction live using List.reverseRecOn with
  | nil =>
    constructor
    · intro h
      obtain ⟨since, hsince⟩ := h
      exact absurd hsince not_sinceHeader_nil
    · intro h
      cases h
  | append_singleton live line ih =>
    rw [opensAfter_concat]
    simp only [sinceHeader_concat_iff]
    cases hline : Header.find? line with
    | some header =>
      obtain ⟨kind, name⟩ := header
      unfold opens
      rw [hline]
      simp
    | none =>
      rw [opens_of_no_header _ _ hline, ← ih]
      simp

/-! ## One line -/

/-- A line that comes behind some others is live. -/
def LiveBehind (lines : List Text) (line : Text) : Prop :=
  (judge (openAfter false lines) line).live = true

instance (lines : List Text) (line : Text) : Decidable (LiveBehind lines line) :=
  inferInstanceAs (Decidable ((judge (openAfter false lines) line).live = true))

section

variable {target line : Text} {lines : List Text} {s : Scope}

theorem liveTexts_of_liveBehind (h : LiveBehind lines line) :
    liveTexts false (lines ++ [line]) = liveTexts false lines ++ [trim line] := by
  rw [liveTexts_append]
  exact congrArg _ (if_pos h)

theorem liveTexts_of_not_liveBehind (h : ¬ LiveBehind lines line) :
    liveTexts false (lines ++ [line]) = liveTexts false lines := by
  rw [liveTexts_append]
  exact (congrArg _ (if_neg h)).trans (List.append_nil _)

/-- The scope judges a line with the comment state that the lines in front of it leave behind. -/
theorem judge_live_iff_liveBehind :
    (judge (after target {} lines).inComment line).live = true ↔ LiveBehind lines line := by
  rw [after_inComment]
  exact Iff.rfl

/-- No block comment is open around a live line, so that the comment state stays as it is. -/
theorem feed_of_liveBehind (h : LiveBehind lines line) :
    (after target {} lines).feed target line
      = (after target {} lines).advance target (trim line) := by
  have hlive : (judge (after target {} lines).inComment line).live = true :=
    judge_live_iff_liveBehind.2 h
  obtain ⟨hline, hcount, hnone⟩ := judge_live_iff.1 hlive
  have hsame : (judge (after target {} lines).inComment line).inComment
      = (after target {} lines).inComment := by
    rw [hnone, judge_of_live hline hcount]
  unfold feed
  dsimp only
  rw [if_pos hlive, hsame]

theorem feed_of_not_liveBehind (h : ¬ LiveBehind lines line) :
    (after target {} lines).feed target line
      = ({ after target {} lines with
          inComment := (judge (after target {} lines).inComment line).inComment },
        .inComment) := by
  unfold feed
  exact if_neg (mt judge_live_iff_liveBehind.1 h)

theorem enter_depth_of_header {header : Header} (h : Header.find? line = some header) :
    (s.enter target line).depth = 0 := by
  unfold enter
  rw [h]

theorem enter_depth_of_no_header (h : Header.find? line = none) :
    (s.enter target line).depth = s.depth := by
  unfold enter
  rw [h]

theorem advance_depth (h : opens target s.inside line = true) :
    (s.advance target line).1.depth
      = (s.enter target line).depth + line.count '{' - line.count '}' := by
  rw [← enter_inside] at h
  unfold advance
  dsimp only
  rw [if_pos h]
  rfl

theorem advance_standing (h : opens target s.inside line = true) :
    (s.advance target line).2
      = if 0 < (s.advance target line).1.depth ∨ '{' ∈ line then .inSelection
        else .inOperation := by
  rw [← enter_inside] at h
  unfold advance
  dsimp only
  rw [if_pos h]

theorem advance_standing_of_closed (h : ¬ opens target s.inside line = true) :
    (s.advance target line).2 = .outside := by
  rw [← enter_inside] at h
  unfold advance
  dsimp only
  rw [if_neg h]

end

/-! ## The depth behind some lines -/

theorem after_concat (target : Text) (s : Scope) (lines : List Text) (line : Text) :
    after target s (lines ++ [line]) = ((after target s lines).feed target line).1 := by
  unfold after
  rw [List.foldl_append]
  rfl

/-- The scope is open at a live line exactly when there are lines since a header that names
`target`, up to and including this line. -/
theorem opens_iff_of_liveBehind {target line : Text} {lines : List Text}
    (h : LiveBehind lines line) :
    opens target (after target {} lines).inside (trim line) = true
      ↔ ∃ since, SinceHeader target (liveTexts false (lines ++ [line])) since := by
  rw [exists_sinceHeader_iff, liveTexts_of_liveBehind h, opensAfter_concat, after_inside]

/-- **The depth in an open scope is the greatest sum over the ends of the lines since the last
header.** -/
theorem isGreatest_depth_after {target : Text} {lines since : List Text}
    (h : SinceHeader target (liveTexts false lines) since) :
    IsGreatest (endSums since) ((after target {} lines).depth : Int) := by
  induction lines using List.reverseRecOn generalizing since with
  | nil => exact absurd h not_sinceHeader_nil
  | append_singleton lines line ih =>
    rw [after_concat]
    by_cases hlive : LiveBehind lines line
    · have hopens := (opens_iff_of_liveBehind hlive).2 ⟨since, h⟩
      rw [liveTexts_of_liveBehind hlive] at h
      rw [feed_of_liveBehind hlive, advance_depth hopens]
      rcases sinceHeader_concat_iff.1 h with ⟨⟨kind, hkind⟩, rfl⟩ | ⟨hnone, before, hbefore, rfl⟩
      · -- a header forgets the depth, and its own line is the first to be counted
        rw [enter_depth_of_header hkind]
        exact isGreatest_endSums_concat isGreatest_endSums_nil (trim line)
      · rw [enter_depth_of_no_header hnone]
        exact isGreatest_endSums_concat (ih hbefore) (trim line)
    · rw [liveTexts_of_not_liveBehind hlive] at h
      rw [feed_of_not_liveBehind hlive]
      exact ih h

/-! ## Standings -/

/-- The standing that the live lines give to the last of some lines. -/
inductive Stands (target : Text) (lines : List Text) (line : Text) : Standing → Prop where
  /-- the line is not live -/
  | inComment : ¬ LiveBehind lines line → Stands target lines line .inComment
  /-- there is no header up to the line, or the last one has another name -/
  | outside : LiveBehind lines line →
      (∀ since, ¬ SinceHeader target (liveTexts false (lines ++ [line])) since) →
      Stands target lines line .outside
  /-- the line has an opening brace, or since the header some end leaves one open -/
  | inSelection {since : List Text} : LiveBehind lines line →
      SinceHeader target (liveTexts false (lines ++ [line])) since →
      ('{' ∈ line ∨ ∃ tail, tail <:+ since ∧ 0 < (tail.map Block.surplus).sum) →
      Stands target lines line .inSelection
  /-- the line has none, and no end leaves one open -/
  | inOperation {since : List Text} : LiveBehind lines line →
      SinceHeader target (liveTexts false (lines ++ [line])) since →
      '{' ∉ line → (∀ tail, tail <:+ since → (tail.map Block.surplus).sum ≤ 0) →
      Stands target lines line .inOperation

/-- Every line stands as the live lines say. -/
theorem stands_feed (target : Text) (lines : List Text) (line : Text) :
    Stands target lines line ((after target {} lines).feed target line).2 := by
  by_cases hlive : LiveBehind lines line
  · by_cases hopens : opens target (after target {} lines).inside (trim line) = true
    · obtain ⟨since, hsince⟩ := (opens_iff_of_liveBehind hlive).1 hopens
      have hpos := pos_iff_of_isGreatest (isGreatest_depth_after hsince)
      have hbrace : '{' ∈ trim line ↔ '{' ∈ line := mem_trim_iff (by decide) line
      rw [after_concat, feed_of_liveBehind hlive] at hpos
      rw [feed_of_liveBehind hlive, advance_standing hopens]
      split
      · rename_i hopen
        rw [hpos, hbrace] at hopen
        exact .inSelection hlive hsince hopen.symm
      · rename_i hopen
        rw [hpos, hbrace, not_or] at hopen
        refine .inOperation hlive hsince hopen.2 ?_
        intro tail htail
        by_contra hsum
        exact hopen.1 ⟨tail, htail, by omega⟩
    · rw [feed_of_liveBehind hlive, advance_standing_of_closed hopens]
      refine .outside hlive ?_
      intro since hsince
      exact hopens ((opens_iff_of_liveBehind hlive).2 ⟨since, hsince⟩)
  · rw [feed_of_not_liveBehind hlive]
    exact .inComment hlive

/-- The live lines give no line two standings. -/
theorem Stands.unique {target line : Text} {lines : List Text} {standing standing' : Standing}
    (h : Stands target lines line standing) (h' : Stands target lines line standing') :
    standing = standing' := by
  cases h with
  | inComment hdead =>
    cases h' with
    | inComment _ => rfl
    | outside hlive _ => exact absurd hlive hdead
    | inSelection hlive _ _ => exact absurd hlive hdead
    | inOperation hlive _ _ _ => exact absurd hlive hdead
  | outside hlive hnone =>
    cases h' with
    | inComment hdead => exact absurd hlive hdead
    | outside _ _ => rfl
    | inSelection _ hsince _ => exact absurd hsince (hnone _)
    | inOperation _ hsince _ _ => exact absurd hsince (hnone _)
  | inSelection hlive hsince hopen =>
    cases h' with
    | inComment hdead => exact absurd hlive hdead
    | outside _ hnone => exact absurd hsince (hnone _)
    | inSelection _ _ _ => rfl
    | inOperation _ hsince' hbrace hsums =>
      obtain rfl := hsince.unique hsince'
      rcases hopen with hopen | ⟨tail, htail, hsum⟩
      · exact absurd hopen hbrace
      · have := hsums tail htail
        omega
  | inOperation hlive hsince hbrace hsums =>
    cases h' with
    | inComment hdead => exact absurd hlive hdead
    | outside _ hnone => exact absurd hsince (hnone _)
    | inSelection _ hsince' hopen =>
      obtain rfl := hsince.unique hsince'
      rcases hopen with hopen | ⟨tail, htail, hsum⟩
      · exact absurd hopen hbrace
      · have := hsums tail htail
        omega
    | inOperation _ _ _ _ => rfl

/--
**The standing of a line in closed form.**

Take any lines and one more. If this one is not live it stands in a comment, and neither the depth
nor the flag of the scope changes. If it is live and the last header up to and including it names
`target`, then it stands in the selection set when it has an opening brace, or when the live lines
since this header have an end that opens more braces than it closes, and in the operation when
neither holds. Any other line stands outside. The depth itself is the greatest sum over these ends.
-/
theorem feed_closed_form (target : Text) (lines : List Text) (line : Text) :
    (∀ standing, ((after target {} lines).feed target line).2 = standing
      ↔ Stands target lines line standing)
    ∧ (¬ LiveBehind lines line →
      ((after target {} lines).feed target line).1.depth = (after target {} lines).depth
      ∧ ((after target {} lines).feed target line).1.inside = (after target {} lines).inside)
    ∧ ∀ since, SinceHeader target (liveTexts false (lines ++ [line])) since →
      IsGreatest (endSums since) (((after target {} lines).feed target line).1.depth : Int) := by
  refine ⟨?_, ?_, ?_⟩
  · intro standing
    constructor
    · intro h
      rw [← h]
      exact stands_feed target lines line
    · intro h
      exact (stands_feed target lines line).unique h
  · intro hdead
    rw [feed_of_not_liveBehind hdead]
    exact ⟨rfl, rfl⟩
  · intro since hsince
    rw [← after_concat]
    exact isGreatest_depth_after hsince

/-- A header that starts the count anew, a line that closes more than is open, a comment with another
header, and a line that leaves its brace open. -/
def forgetfulLines : List Text :=
  ["query B \x7b \x7b".toList, "query A \x7b".toList, "\x7d \x7d".toList, "# query B".toList,
    "a \x7b".toList]

/-- The live ones of these lines from the last header on. -/
def forgetfulEnd : List Text :=
  ["query A \x7b".toList, "\x7d \x7d".toList, "a \x7b".toList]

/-- As many braces are closed as are opened since the header, and yet the next line stands in the
selection set, for a brace too many that was closed in between does not count. -/
theorem feed_closed_form_forgetfulLines :
    ¬ LiveBehind forgetfulLines "# b".toList
    ∧ ((after ['A'] {} forgetfulLines).feed ['A'] "# b".toList).1.depth
        = (after ['A'] {} forgetfulLines).depth
    ∧ SinceHeader ['A'] (liveTexts false (forgetfulLines ++ [['b']])) (forgetfulEnd ++ [['b']])
    ∧ ((forgetfulEnd ++ [['b']]).map Block.surplus).sum = 0
    ∧ IsGreatest (endSums (forgetfulEnd ++ [['b']]))
        (((after ['A'] {} forgetfulLines).feed ['A'] ['b']).1.depth : Int)
    ∧ Stands ['A'] forgetfulLines ['b'] .inSelection := by
  have hdead : ¬ LiveBehind forgetfulLines "# b".toList := by decide +kernel
  have hlive : liveTexts false (forgetfulLines ++ [['b']])
      = ["query B \x7b \x7b".toList] ++ (forgetfulEnd ++ [['b']]) := by decide +kernel
  have hsince : SinceHeader ['A'] (liveTexts false (forgetfulLines ++ [['b']]))
      (forgetfulEnd ++ [['b']]) :=
    ⟨_, "query A \x7b".toList, ["\x7d \x7d".toList, "a \x7b".toList, ['b']], .query, hlive, rfl,
      by decide +kernel, by decide +kernel⟩
  have hstanding : ((after ['A'] {} forgetfulLines).feed ['A'] ['b']).2 = .inSelection := by
    decide +kernel
  obtain ⟨-, hsame, -⟩ := feed_closed_form ['A'] forgetfulLines "# b".toList
  obtain ⟨hstands, -, hgreatest⟩ := feed_closed_form ['A'] forgetfulLines ['b']
  exact ⟨hdead, (hsame hdead).1, hsince, by decide +kernel, hgreatest _ hsince,
    (hstands _).1 hstanding⟩

end Scope

end GqlScan
