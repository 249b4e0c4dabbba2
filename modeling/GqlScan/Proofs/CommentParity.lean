import Mathlib.Algebra.Ring.Parity
import Mathlib.Order.Bounds.Defs
import GqlScan.Proofs.TrailingComments.Stripped

/-!
# Liveness read off the whole document

The scan for live lines carries one flag from line to line, and lines with delimiters flip it. What
the flag says in front of a line can be counted at once: it is the parity of the number of
delimiters on all earlier lines, those that start with a number sign left out. Lines inside a block
comment are counted like any others, for only their first character takes them out.

The delimiters of a line are counted from the left and without overlap. A run of double quotes
holds a third of its length, and nobody who takes delimiters out of a line in another way finds
more than are counted.

Main statement: `mem_liveLines_iff_parity`.
-/

namespace GqlScan.Comment

open Text

/-! ## Delimiters of a line -/

/-- The delimiter of block comments. -/
def delimiter : Text := ['"', '"', '"']

/-- A line holds `n` delimiters without overlap: it is made of `n + 1` pieces with a delimiter
between neighbours. -/
def HoldsDelimiters (n : Nat) (line : Text) : Prop :=
  ∃ pieces : List Text, pieces.length = n + 1 ∧ join delimiter pieces = line

theorem delimiterCount_replicate :
    ∀ k : Nat, delimiterCount (List.replicate k '"') = k / 3
  | 0 => rfl
  | 1 => rfl
  | 2 => rfl
  | k + 3 => by
    have hrest := delimiterCount_replicate k
    have hcount : delimiterCount (List.replicate (k + 3) '"')
        = delimiterCount (List.replicate k '"') + 1 := rfl
    omega

/-- Three quotes of a run make one delimiter. -/
theorem delimiterCount_run {v : Text} (hv : Stops (· == '"') v) (k : Nat) :
    delimiterCount (List.replicate k '"' ++ v) = k / 3 + delimiterCount v := by
  cases v with
  | nil => rw [List.append_nil, delimiterCount_replicate]; rfl
  | cons c v =>
    have hc : c ≠ '"' := by simpa using hv.head
    rw [delimiterCount_append_cons hc, delimiterCount_replicate, delimiterCount_cons_of_ne hc]

theorem exists_run (t : Text) :
    ∃ k v, t = List.replicate k '"' ++ v ∧ Stops (· == '"') v := by
  refine ⟨(t.takeWhile (· == '"')).length, t.dropWhile (· == '"'), ?_, stops_dropWhile _ t⟩
  have hrun : t.takeWhile (· == '"') = List.replicate (t.takeWhile (· == '"')).length '"' := by
    refine List.eq_replicate_of_mem fun c hc => ?_
    simpa using List.mem_takeWhile_imp hc
  rw [← hrun, List.takeWhile_append_dropWhile]

/-- A character in front takes no delimiter away, although it may move where they are found. -/
theorem delimiterCount_le_cons (c : Char) (t : Text) :
    delimiterCount t ≤ delimiterCount (c :: t) := by
  by_cases hc : c = '"'
  · -- the run at the front grows by one, and a third of its length cannot become less
    subst hc
    obtain ⟨k, v, rfl, hv⟩ := exists_run t
    have hlonger : '"' :: (List.replicate k '"' ++ v) = List.replicate (k + 1) '"' ++ v := rfl
    rw [hlonger, delimiterCount_run hv, delimiterCount_run hv]
    omega
  · rw [delimiterCount_cons_of_ne hc]

theorem delimiterCount_lt_append (t u : Text) :
    delimiterCount u < delimiterCount (t ++ (delimiter ++ u)) := by
  induction t with
  | nil => exact Nat.lt_succ_self _
  | cons c t ih => exact Nat.lt_of_lt_of_le ih (delimiterCount_le_cons c _)

theorem length_le_of_join :
    ∀ pieces : List Text, pieces.length ≤ delimiterCount (join delimiter pieces) + 1
  | [] => Nat.zero_le _
  | [_] => Nat.le_add_left 1 _
  | t :: u :: ts => by
    have hrest := length_le_of_join (u :: ts)
    have hfirst := delimiterCount_lt_append t (join delimiter (u :: ts))
    rw [join, List.append_assoc, List.length_cons]
    omega

theorem holdsDelimiters_count (line : Text) : HoldsDelimiters (delimiterCount line) line := by
  fun_induction delimiterCount line with
  | case1 rest ih =>
    obtain ⟨pieces, hlength, hjoin⟩ := ih
    cases pieces with
    | nil => cases hlength
    | cons p ps =>
      refine ⟨[] :: p :: ps, by simpa using hlength, ?_⟩
      rw [join, hjoin]
      rfl
  | case2 c rest hne ih =>
    obtain ⟨pieces, hlength, hjoin⟩ := ih
    cases pieces with
    | nil => cases hlength
    | cons p ps =>
      refine ⟨(c :: p) :: ps, hlength, ?_⟩
      rw [← hjoin]
      cases ps <;> rfl
  | case3 => exact ⟨[[]], rfl, rfl⟩

/-- **The count of a line is the most delimiters that it holds.** -/
theorem isGreatest_delimiterCount (line : Text) :
    IsGreatest {n | HoldsDelimiters n line} (delimiterCount line) := by
  refine ⟨holdsDelimiters_count line, ?_⟩
  rintro n ⟨pieces, hlength, rfl⟩
  have hle := length_le_of_join pieces
  omega

/-! ## The flag as a parity -/

/-- The number of delimiters on some lines, those that start with a number sign left out. -/
def delimitersOn (lines : List Text) : Nat :=
  (((lines.map trim).filter fun line => !isLineComment line).map delimiterCount).sum

theorem delimitersOn_nil : delimitersOn [] = 0 := rfl

theorem delimitersOn_cons (line : Text) (rest : List Text) :
    delimitersOn (line :: rest)
      = (if isLineComment (trim line) then 0 else delimiterCount (trim line))
        + delimitersOn rest := by
  unfold delimitersOn
  rw [List.map_cons, List.filter_cons]
  cases isLineComment (trim line) <;> simp

/-- A line flips the flag when it brings an odd number of delimiters. -/
theorem judge_inComment (inComment : Bool) (line : Text) :
    (judge inComment line).inComment
      = (inComment ^^
          decide (Odd (if isLineComment (trim line) then 0 else delimiterCount (trim line)))) := by
  unfold judge classify
  by_cases hline : isLineComment (trim line) = true
  · simp [hline]
  · by_cases hcount : delimiterCount (trim line) = 0
    · simp [hline, hcount]
    · by_cases hodd : delimiterCount (trim line) % 2 = 1
      · simp [hline, hcount, hodd, Nat.odd_iff]
      · simp [hline, hcount, hodd, Nat.odd_iff]

theorem decide_odd_add (m n : Nat) :
    decide (Odd (m + n)) = (decide (Odd m) ^^ decide (Odd n)) := by
  have hsum : Odd (m + n) ↔ (Odd m ↔ ¬ Odd n) := by
    rw [Nat.odd_add, Nat.not_odd_iff_even]
  by_cases hm : Odd m <;> by_cases hn : Odd n <;> simp [hsum, hm, hn]

theorem openAfter_eq_parity (inComment : Bool) (lines : List Text) :
    openAfter inComment lines = (inComment ^^ decide (Odd (delimitersOn lines))) := by
  induction lines generalizing inComment with
  | nil => simp [openAfter, delimitersOn_nil]
  | cons line rest ih =>
    rw [openAfter_cons, ih, judge_inComment, delimitersOn_cons, decide_odd_add, Bool.xor_assoc]

/-! ## Live lines -/

theorem judge_live_iff {inComment : Bool} {line : Text} :
    (judge inComment line).live = true
      ↔ isLineComment (trim line) = false ∧ delimiterCount (trim line) = 0
        ∧ inComment = false := by
  refine ⟨judge_live, ?_⟩
  rintro ⟨hline, hcount, rfl⟩
  rw [judge_of_live hline hcount]

theorem mem_liveFrom_cons {inComment : Bool} {number : Nat} {line : Text} {rest : List Text}
    {l : NumberedLine} :
    l ∈ liveFrom inComment number (line :: rest)
      ↔ ((judge inComment line).live = true ∧ l = ⟨number, trim line⟩)
        ∨ l ∈ liveFrom (judge inComment line).inComment (number + 1) rest := by
  rw [liveFrom]
  cases (judge inComment line).live <;> simp

/-- The line at an index is live when it is judged so with the flag that the lines in front of it
leave behind. -/
theorem mem_liveFrom_iff {inComment : Bool} {number : Nat} {lines : List Text}
    {l : NumberedLine} :
    l ∈ liveFrom inComment number lines
      ↔ ∃ i line, lines[i]? = some line ∧ l = ⟨number + i, trim line⟩
        ∧ (judge (openAfter inComment (lines.take i)) line).live = true := by
  induction lines generalizing inComment number with
  | nil => simp [liveFrom]
  | cons first rest ih =>
    rw [mem_liveFrom_cons, ih]
    constructor
    · rintro (⟨hlive, rfl⟩ | ⟨i, line, hi, rfl, hlive⟩)
      · exact ⟨0, first, rfl, rfl, hlive⟩
      · refine ⟨i + 1, line, hi, ?_, hlive⟩
        rw [Nat.add_assoc, Nat.add_comm 1 i]
    · rintro ⟨i, line, hi, rfl, hlive⟩
      cases i with
      | zero =>
        cases hi
        exact .inl ⟨hlive, rfl⟩
      | succ i =>
        refine .inr ⟨i, line, hi, ?_, hlive⟩
        rw [Nat.add_assoc, Nat.add_comm 1 i]

/-- The numbers of live lines increase. -/
theorem pairwise_liveFrom (inComment : Bool) (number : Nat) (lines : List Text) :
    (liveFrom inComment number lines).Pairwise fun l m => l.number < m.number := by
  induction lines generalizing inComment number with
  | nil => exact .nil
  | cons line rest ih =>
    rw [liveFrom]
    split
    · refine List.pairwise_cons.2 ⟨fun m hm => ?_, ih _ _⟩
      obtain ⟨i, _, _, rfl, _⟩ := mem_liveFrom_iff.1 hm
      have hlater : number < number + 1 + i := by omega
      exact hlater
    · exact ih _ _

/-- The line at an index of some lines is live by count: it does not start with a number sign and
holds no delimiter, and the earlier lines bring an even number of delimiters. -/
structure LiveByCount (lines : List Text) (i : Nat) (line : Text) : Prop where
  here : lines[i]? = some line
  sign : (trim line).head? ≠ some '#'
  delimiters : ¬ delimiter <:+: trim line
  even : Even (delimitersOn (lines.take i))

theorem liveByCount_iff {lines : List Text} {i : Nat} {line : Text} :
    LiveByCount lines i line
      ↔ lines[i]? = some line ∧ (judge (openAfter false (lines.take i)) line).live = true := by
  have hopen : openAfter false (lines.take i) = false ↔ Even (delimitersOn (lines.take i)) := by
    rw [openAfter_eq_parity, Bool.false_xor, decide_eq_false_iff_not, Nat.not_odd_iff_even]
  have hsign : isLineComment (trim line) = false ↔ (trim line).head? ≠ some '#' := by
    unfold isLineComment
    rw [beq_eq_false_iff_ne]
  rw [judge_live_iff, hopen, hsign, delimiterCount_eq_zero_iff]
  exact ⟨fun h => ⟨h.here, h.sign, h.delimiters, h.even⟩,
    fun ⟨hhere, hsign, hdelimiters, heven⟩ => ⟨hhere, hsign, hdelimiters, heven⟩⟩

/--
**Liveness is a parity over the whole document.**

The live lines are those that start with no number sign, hold no delimiter, and stand behind an
even number of delimiters. They are given trimmed, with their numbers from one, in increasing order.
After any lines a block comment is open exactly when the number of delimiters on them is odd. Lines
that start with a number sign are left out, and what is counted on any other is the most delimiters
that it holds without overlap.
-/
theorem mem_liveLines_iff_parity (content : Text) :
    (∀ (number : Nat) (text : Text), ⟨number, text⟩ ∈ liveLines content
      ↔ ∃ i line, number = i + 1 ∧ text = trim line ∧ LiveByCount (lineTexts content) i line)
    ∧ (liveLines content).Pairwise (fun l m => l.number < m.number)
    ∧ (∀ lines : List Text, openAfter false lines = true ↔ Odd (delimitersOn lines))
    ∧ ∀ line : Text, IsGreatest {n | HoldsDelimiters n line} (delimiterCount line) := by
  refine ⟨fun number text => ?_, pairwise_liveFrom false 1 _, fun lines => ?_,
    isGreatest_delimiterCount⟩
  · unfold liveLines
    rw [mem_liveFrom_iff]
    constructor
    · rintro ⟨i, line, hi, hl, hlive⟩
      cases hl
      exact ⟨i, line, Nat.add_comm 1 i, rfl, liveByCount_iff.2 ⟨hi, hlive⟩⟩
    · rintro ⟨i, line, rfl, rfl, hcount⟩
      obtain ⟨hi, hlive⟩ := liveByCount_iff.1 hcount
      exact ⟨i, line, hi, by rw [Nat.add_comm], hlive⟩
  · rw [openAfter_eq_parity, Bool.false_xor, decide_eq_true_iff]

end GqlScan.Comment
