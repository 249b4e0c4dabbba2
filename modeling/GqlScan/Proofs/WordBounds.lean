import GqlScan.Proofs.Readers
import GqlScan.Word

/-!
# Where a word begins and ends

The word at a column is found by going from the column to the left and to the right for as long as
there are word characters. The columns passed over are a run that cannot be made longer, and two
such runs have no column in common unless they are the same. So the word is determined by any of
its columns, and all of them give the same one.

Columns are integers: one in front of the line or behind it lies on no word, and a run may begin or
end there.

Main statements: `IsWord.unique`, and `wordAt_maximal`.
-/

namespace GqlScan

open Text

/-- A word character stands at a column of a line. -/
def OnWord (t : Text) (column : Int) : Prop :=
  0 ≤ column ∧ ∃ c, t[column.toNat]? = some c ∧ isWordChar c = true

theorem onWord_natCast {t : Text} {i : Nat} :
    OnWord t i ↔ ∃ c, t[i]? = some c ∧ isWordChar c = true := by
  unfold OnWord
  rw [Int.toNat_natCast]
  exact and_iff_right (Int.natCast_nonneg i)

/-- A column is off every word when it lies outside of the line, or when what stands there is
neither a letter, nor numeric, nor an underscore. -/
theorem not_onWord_iff {t : Text} {column : Int} :
    ¬ OnWord t column
      ↔ column < 0 ∨ t.length ≤ column
        ∨ ∃ c, t[column.toNat]? = some c ∧ isAlphanumeric c = false ∧ c ≠ '_' := by
  have hletter : ∀ c, isWordChar c = false ↔ isAlphanumeric c = false ∧ c ≠ '_' := by
    intro c
    simp [isWordChar]
  by_cases hneg : column < 0
  · exact iff_of_true (fun h => absurd h.1 (by omega)) (Or.inl hneg)
  · obtain ⟨i, rfl⟩ := Int.eq_ofNat_of_zero_le (by omega : 0 ≤ column)
    rw [onWord_natCast, Int.toNat_natCast]
    cases hc : t[i]? with
    | none =>
      have hlong : t.length ≤ i := List.getElem?_eq_none_iff.1 hc
      exact iff_of_true (by simp) (Or.inr (Or.inl (by omega)))
    | some c =>
      obtain ⟨hshort, -⟩ := List.getElem?_eq_some_iff.1 hc
      have hin : ¬ (t.length : Int) ≤ i := by omega
      simp [hneg, hin, ← hletter]

/-- The columns from `start` on up to `stop` make a word of a line: word characters stand at all of
them, and none directly in front of them or behind. -/
structure IsWord (t : Text) (start stop : Nat) : Prop where
  letters : ∀ column : Int, start ≤ column → column < stop → OnWord t column
  before : ¬ OnWord t ((start : Int) - 1)
  behind : ¬ OnWord t stop

section

variable {t : Text} {start stop start' stop' : Nat} {column : Int}

/-- A word that has a column of another one does not begin later. -/
theorem IsWord.start_le (h : IsWord t start stop) (h' : IsWord t start' stop')
    (hstop : column < stop) (hstart' : start' ≤ column) : start' ≤ start := by
  by_contra hlater
  -- the column in front of the later one would lie on the other
  exact h'.before (h.letters _ (by omega) (by omega))

/-- A word that has a column of another one does not end later. -/
theorem IsWord.stop_le (h : IsWord t start stop) (h' : IsWord t start' stop')
    (hstart : start ≤ column) (hstop' : column < stop') : stop ≤ stop' := by
  by_contra hlater
  exact h'.behind (h.letters _ (by omega) (by omega))

/-- **Words that share a column are the same.** -/
theorem IsWord.unique (h : IsWord t start stop) (h' : IsWord t start' stop')
    (hstart : start ≤ column) (hstop : column < stop)
    (hstart' : start' ≤ column) (hstop' : column < stop') : start = start' ∧ stop = stop' := by
  have hle := h.start_le h' hstop hstart'
  have hge := h'.start_le h hstop' hstart
  have hle' := h.stop_le h' hstart hstop'
  have hge' := h'.stop_le h hstart' hstop
  omega

end

/-- Word characters between two texts that do not go on with one make a word. -/
theorem isWord_of_append {front word rest : Text} (hword : ∀ c ∈ word, isWordChar c = true)
    (hfront : Stops isWordChar front.reverse) (hrest : Stops isWordChar rest) :
    IsWord (front ++ (word ++ rest)) front.length (front.length + word.length) where
  letters := by
    intro column hstart hstop
    obtain ⟨i, rfl⟩ := Int.eq_ofNat_of_zero_le (by omega : 0 ≤ column)
    have hlt : i - front.length < word.length := by omega
    refine onWord_natCast.2 ⟨word[i - front.length], ?_, hword _ (List.getElem_mem hlt)⟩
    rw [List.getElem?_append_right (by omega), List.getElem?_append_left hlt]
    exact List.getElem?_eq_getElem hlt
  before := by
    intro hon
    rcases List.eq_nil_or_concat' front with rfl | ⟨init, last, rfl⟩
    · exact absurd hon.1 (by decide)
    · have hcolumn : (((init ++ [last]).length : Int) - 1) = (init.length : Nat) := by simp
      have hlast : isWordChar last = false := hfront last (by simp)
      rw [hcolumn] at hon
      obtain ⟨c, hc, hletter⟩ := onWord_natCast.1 hon
      rw [List.append_assoc, List.getElem?_append_right (Nat.le_refl _), Nat.sub_self] at hc
      obtain rfl := Option.some.inj hc
      rw [hlast] at hletter
      cases hletter
  behind := by
    intro hon
    obtain ⟨c, hc, hletter⟩ := onWord_natCast.1 hon
    have hhead : rest.head? = some c := by
      rw [List.getElem?_append_right (by omega), List.getElem?_append_right (by omega)] at hc
      have hzero : front.length + word.length - front.length - word.length = 0 := by omega
      rw [hzero] at hc
      rw [List.head?_eq_getElem?]
      exact hc
    rw [hrest c hhead] at hletter
    cases hletter

/-! ## The word that is found -/

theorem wordAt_of_letter {t rest : Text} {column : Int} {c : Char} (hpos : 0 ≤ column)
    (hdrop : t.drop column.toNat = c :: rest) (hc : isWordChar c = true) :
    wordAt t column
      = ((t.take column.toNat).reverse.takeWhile isWordChar).reverse
        ++ c :: rest.takeWhile isWordChar := by
  unfold wordAt
  rw [if_neg (by omega), hdrop]
  exact if_pos hc

theorem wordAt_of_not_onWord {t : Text} {column : Int} (h : ¬ OnWord t column) :
    wordAt t column = [] := by
  unfold wordAt
  by_cases hneg : column < 0
  · exact if_pos hneg
  · rw [if_neg hneg]
    cases hdrop : t.drop column.toNat with
    | nil => rfl
    | cons c rest =>
      dsimp only
      refine if_neg fun hc => h ⟨by omega, c, ?_, hc⟩
      rw [← List.head?_drop, hdrop]
      rfl

/-- A text is what stands in front of the word characters at its end, followed by these. -/
theorem exists_append_lastLetters (t : Text) :
    ∃ front, t = front ++ (t.reverse.takeWhile isWordChar).reverse
      ∧ Stops isWordChar front.reverse := by
  refine ⟨(t.reverse.dropWhile isWordChar).reverse, ?_, ?_⟩
  · rw [← List.reverse_append, List.takeWhile_append_dropWhile, List.reverse_reverse]
  · rw [List.reverse_reverse]
    exact stops_dropWhile _ _

/-- Going to the left and to the right from a column on a word passes over the whole of it. -/
theorem exists_parts {t : Text} {column : Int} (h : OnWord t column) :
    ∃ front rest, t = front ++ (wordAt t column ++ rest)
      ∧ (∀ c ∈ wordAt t column, isWordChar c = true)
      ∧ Stops isWordChar front.reverse ∧ Stops isWordChar rest
      ∧ front.length ≤ column ∧ column < front.length + (wordAt t column).length := by
  obtain ⟨hpos, c, hc, hletter⟩ := h
  obtain ⟨hshort, hhere⟩ := List.getElem?_eq_some_iff.1 hc
  have hdrop : t.drop column.toNat = c :: t.drop (column.toNat + 1) := by
    rw [← hhere]
    exact List.drop_eq_getElem_cons hshort
  obtain ⟨front, hfront, hstops⟩ := exists_append_lastLetters (t.take column.toNat)
  have hlength : front.length
      + ((t.take column.toNat).reverse.takeWhile isWordChar).reverse.length
        = column.toNat := by
    rw [← List.length_append, ← hfront]
    exact List.length_take_of_le (by omega)
  rw [wordAt_of_letter hpos hdrop hletter]
  refine ⟨front, (t.drop (column.toNat + 1)).dropWhile isWordChar, ?_, ?_, hstops,
    stops_dropWhile _ _, by omega, ?_⟩
  · rw [List.append_assoc, List.cons_append, List.takeWhile_append_dropWhile, ← hdrop,
      ← List.append_assoc, ← hfront, List.take_append_drop]
  · intro d hd
    rcases List.mem_append.1 hd with hd | hd
    · exact List.mem_takeWhile_imp (List.mem_reverse.1 hd)
    · rcases List.mem_cons.1 hd with rfl | hd
      · exact hletter
      · exact List.mem_takeWhile_imp hd
  · rw [List.length_append, List.length_cons]
    omega

/-- Every column on a word lies in one, and this word is found there. -/
theorem exists_isWord {t : Text} {column : Int} (h : OnWord t column) :
    ∃ start stop : Nat, IsWord t start stop ∧ start ≤ column ∧ column < stop
      ∧ wordAt t column = (t.take stop).drop start := by
  obtain ⟨front, rest, ht, hword, hfront, hrest, hstart, hstop⟩ := exists_parts h
  have hisWord := isWord_of_append hword hfront hrest
  rw [← ht] at hisWord
  refine ⟨_, _, hisWord, hstart, by exact_mod_cast hstop, ?_⟩
  rw [← List.append_assoc] at ht
  have htake := congrArg (List.take (front ++ wordAt t column).length) ht
  rw [List.take_left, List.length_append] at htake
  rw [htake, List.drop_left]

/-- **Every column of a word gives this word.** -/
theorem IsWord.wordAt_eq {t : Text} {start stop : Nat} {column : Int}
    (h : IsWord t start stop) (hstart : start ≤ column) (hstop : column < stop) :
    wordAt t column = (t.take stop).drop start := by
  obtain ⟨start', stop', h', hstart', hstop', hat⟩ := exists_isWord (h.letters _ hstart hstop)
  obtain ⟨rfl, rfl⟩ := h.unique h' hstart hstop hstart' hstop'
  exact hat

/-- A word that begins in front of its end is not empty. -/
theorem IsWord.ne_nil {t : Text} {start stop : Nat} (h : IsWord t start stop)
    (hlt : start < stop) : (t.take stop).drop start ≠ [] := by
  obtain ⟨c, hc, -⟩ := onWord_natCast.1 (h.letters start (Int.le_refl _) (by omega))
  intro hnil
  have hhead : ((t.take stop).drop start).head? = some c := by
    rw [List.head?_drop, List.getElem?_take_of_lt hlt]
    exact hc
  rw [hnil] at hhead
  cases hhead

theorem wordAt_eq_nil_iff {t : Text} {column : Int} :
    wordAt t column = [] ↔ ¬ OnWord t column := by
  constructor
  · intro hnil hon
    obtain ⟨start, stop, h, hstart, hstop, hat⟩ := exists_isWord hon
    exact h.ne_nil (by omega) (hat.symm.trans hnil)
  · exact wordAt_of_not_onWord

/--
**The word at a column is the longest one around it.**

There is none exactly when the column lies outside of the line, or when what stands there is neither
a letter, nor numeric, nor an underscore. Otherwise it is a piece of the line around the column, made
of such characters alone and with none directly in front of it or behind, and every column of this
piece gives the same word.
-/
theorem wordAt_maximal (t : Text) (column : Int) :
    (wordAt t column = []
      ↔ column < 0 ∨ t.length ≤ column
        ∨ ∃ c, t[column.toNat]? = some c ∧ isAlphanumeric c = false ∧ c ≠ '_')
    ∧ (wordAt t column ≠ [] →
      ∃ start stop : Nat, IsWord t start stop ∧ start ≤ column ∧ column < stop
        ∧ wordAt t column = (t.take stop).drop start
        ∧ ∀ other : Int, start ≤ other → other < stop →
            wordAt t other = wordAt t column) := by
  refine ⟨wordAt_eq_nil_iff.trans not_onWord_iff, ?_⟩
  intro hne
  have hon : OnWord t column := by
    by_contra hoff
    exact hne (wordAt_of_not_onWord hoff)
  obtain ⟨start, stop, h, hstart, hstop, hat⟩ := exists_isWord hon
  refine ⟨start, stop, h, hstart, hstop, hat, ?_⟩
  intro other hother hother'
  rw [hat]
  exact h.wordAt_eq hother hother'

/-- A word with letters and digits beyond ASCII, between a sign and the end of the line. -/
def lateWord : Text := ['$', 'é', '_', '²']

theorem wordAt_maximal_lateWord :
    wordAt lateWord 2 ≠ []
    ∧ ∃ start stop : Nat, IsWord lateWord start stop ∧ start ≤ (2 : Int) ∧ (2 : Int) < stop
      ∧ wordAt lateWord 2 = (lateWord.take stop).drop start
      ∧ ∀ other : Int, start ≤ other → other < stop →
          wordAt lateWord other = wordAt lateWord 2 := by
  have hne : wordAt lateWord 2 ≠ [] := by decide +kernel
  exact ⟨hne, (wordAt_maximal lateWord 2).2 hne⟩

/-- In front of the line and behind it there is no word. -/
example : wordAt lateWord (-1) = [] ∧ wordAt lateWord 3 = ['é', '_', '²']
    ∧ wordAt lateWord 4 = [] := by decide +kernel

end GqlScan
