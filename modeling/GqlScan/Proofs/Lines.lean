import GqlScan.Text.Lines

/-!
# Cutting a text that was put together from lines

Lines can be put together and cut apart again when they are such as a cut can give: no line has a
boundary inside, every line but the last has one at its end, and a carriage return that ends a line
is not followed by a line feed, for the two would be one boundary.

Main statements: `areLines_lines`, that a cut gives such lines, `lines_flatMap_full`, that such
lines are cut apart as they were, `lineTexts_joinLines` for lines joined by line feeds, and
`lines_append` for a text behind whole lines.
-/

namespace GqlScan.Text

/-- A text without a line boundary inside. -/
def Unbroken (t : Text) : Prop := ∀ c ∈ t, isLineBreak c = false

/-- What can stand between two lines: a single boundary, or the pair that counts as one. -/
inductive IsEnding : Text → Prop where
  | single {c : Char} : isLineBreak c = true → IsEnding [c]
  | pair : IsEnding ['\r', '\n']

/-- Lines that a text can be cut into. -/
inductive AreLines : List Line → Prop where
  | nil : AreLines []
  | last {t : Text} : Unbroken t → t ≠ [] → AreLines [⟨t, []⟩]
  | cons {t e : Text} {ls : List Line} : Unbroken t → IsEnding e →
      (e = ['\r'] → (ls.flatMap Line.full).head? ≠ some '\n') → AreLines ls →
      AreLines (⟨t, e⟩ :: ls)

instance (t : Text) : Decidable (Unbroken t) :=
  decidable_of_iff (t.all fun c => isLineBreak c == false) (by
    rw [List.all_eq_true]
    exact forall₂_congr fun c _ => beq_iff_eq)

theorem Unbroken.tail {c : Char} {t : Text} (h : Unbroken (c :: t)) : Unbroken t :=
  fun d hd => h d (List.mem_cons_of_mem c hd)

theorem AreLines.unbroken {ls : List Line} (h : AreLines ls) : ∀ l ∈ ls, Unbroken l.text := by
  induction h with
  | nil =>
    intro l hl
    cases hl
  | last ht _ =>
    intro l hl
    rw [List.mem_singleton.1 hl]
    exact ht
  | cons ht _ _ _ ih =>
    intro l hl
    rcases List.mem_cons.1 hl with rfl | hl
    · exact ht
    · exact ih l hl

theorem isLineBreak_return : isLineBreak '\r' = true := by decide

theorem isLineBreak_feed : isLineBreak '\n' = true := by decide

/-! ## Putting together and cutting apart -/

/-- A character that is no boundary belongs to the first line. -/
theorem lines_cons_of_not_break {c : Char} (h : isLineBreak c = false) (t : Text) :
    lines (c :: t) = consLine c (lines t) := by
  have hc : c ≠ '\r' := by
    rintro rfl
    rw [isLineBreak_return] at h
    cases h
  rw [lines]
  · rw [h]
    rfl
  · intro rest hr
    exact absurd hr hc

theorem lines_ending {e rest : Text} (he : IsEnding e)
    (hr : e = ['\r'] → rest.head? ≠ some '\n') : lines (e ++ rest) = ⟨[], e⟩ :: lines rest := by
  cases he with
  | pair => rfl
  | @single c hc =>
    change lines (c :: rest) = _
    rw [lines]
    · rw [hc]
      rfl
    · rintro more rfl rfl
      exact hr rfl rfl

/-- A return with a feed behind it is cut as the pair, so in the other case there is none. -/
theorem no_feed_behind {c : Char} {rest : Text}
    (h : ∀ more, c = '\r' → rest = '\n' :: more → False) :
    [c] = ['\r'] → rest.head? ≠ some '\n' := by
  intro he hhead
  obtain ⟨more, hmore⟩ := List.head?_eq_some_iff.1 hhead
  exact h more (List.cons.inj he).1 hmore

theorem lines_append_ending {t e rest : Text} (ht : Unbroken t) (he : IsEnding e)
    (hr : e = ['\r'] → rest.head? ≠ some '\n') :
    lines (t ++ (e ++ rest)) = ⟨t, e⟩ :: lines rest := by
  induction t with
  | nil => exact lines_ending he hr
  | cons c t ih =>
    rw [List.cons_append, lines_cons_of_not_break (ht c List.mem_cons_self), ih ht.tail]
    rfl

theorem lines_unbroken {t : Text} (ht : Unbroken t) (hne : t ≠ []) : lines t = [⟨t, []⟩] := by
  induction t with
  | nil => exact absurd rfl hne
  | cons c t ih =>
    rw [lines_cons_of_not_break (ht c List.mem_cons_self)]
    by_cases h : t = []
    · rw [h]
      rfl
    · rw [ih ht.tail h]
      rfl

/-- **Lines put together are cut apart as they were.** -/
theorem lines_flatMap_full {ls : List Line} (h : AreLines ls) :
    lines (ls.flatMap Line.full) = ls := by
  induction h with
  | nil => rfl
  | @last t ht hne =>
    rw [List.flatMap_cons, List.flatMap_nil, List.append_nil, Line.full, List.append_nil]
    exact lines_unbroken ht hne
  | @cons t e ls ht he hr _ ih =>
    rw [List.flatMap_cons, Line.full, List.append_assoc]
    rw [lines_append_ending ht he hr, ih]

/-- Behind a first line every line is written after a line feed. -/
theorem joinLines_cons (line : Text) (lines : List Text) :
    joinLines (line :: lines) = line ++ lines.flatMap (List.cons '\n') := by
  unfold joinLines
  induction lines generalizing line with
  | nil => rw [join, List.flatMap_nil, List.append_nil]
  | cons next lines ih =>
    rw [join, ih, List.flatMap_cons, List.append_assoc]
    rfl

/-- Lines joined by line feeds, with or without one at the end, are cut apart as they were. -/
theorem lineTexts_joinLines {ts : List Text} (hne : ts ≠ [])
    (h : ∀ t ∈ ts, Unbroken t ∧ t ≠ []) (lastFeed : Bool) :
    lineTexts (joinLines ts ++ if lastFeed then ['\n'] else []) = ts := by
  have hfeed : IsEnding ['\n'] := .single isLineBreak_feed
  have hreturn : ['\n'] ≠ ['\r'] := by decide
  unfold lineTexts joinLines
  induction ts with
  | nil => exact absurd rfl hne
  | cons t ts ih =>
    obtain ⟨ht, htne⟩ := h t List.mem_cons_self
    cases ts with
    | nil =>
      rw [join]
      cases lastFeed with
      | false =>
        rw [if_neg (by decide), List.append_nil, lines_unbroken ht htne]
        rfl
      | true =>
        rw [if_pos rfl, ← List.append_nil ['\n'],
          lines_append_ending ht hfeed fun h => absurd h hreturn]
        rfl
    | cons u us =>
      rw [join, List.append_assoc, List.append_assoc,
        lines_append_ending ht hfeed (fun h => absurd h hreturn), List.map_cons,
        ih (List.cons_ne_nil u us) fun v hv => h v (List.mem_cons_of_mem t hv)]

theorem AreLines.consLine {c : Char} {ls : List Line} (hc : isLineBreak c = false)
    (h : AreLines ls) : AreLines (consLine c ls) := by
  have hcons : ∀ {t : Text}, Unbroken t → Unbroken (c :: t) := by
    intro t ht d hd
    rcases List.mem_cons.1 hd with hd | hd
    · exact hd ▸ hc
    · exact ht d hd
  cases h with
  | nil => exact .last (hcons fun d hd => by cases hd) (List.cons_ne_nil _ _)
  | last ht _ => exact .last (hcons ht) (List.cons_ne_nil _ _)
  | cons ht he hr hls => exact .cons (hcons ht) he hr hls

/-- **A cut gives lines that can be cut apart again.** -/
theorem areLines_lines (t : Text) : AreLines (lines t) := by
  have hnil : Unbroken [] := fun d hd => by cases hd
  fun_induction lines t with
  | case1 => exact .nil
  | case2 rest ih =>
    exact .cons hnil .pair (fun h => by cases h) ih
  | case3 c rest h hb ih =>
    refine .cons hnil (.single hb) ?_ ih
    rw [flatMap_full_lines]
    exact no_feed_behind h
  | case4 c rest h hb ih => exact ih.consLine (Bool.not_eq_true _ ▸ hb)

/-! ## Whole lines in front of a text -/

/-- A text of whole lines: it is empty or ends in a line feed. -/
def WholeLines (t : Text) : Prop := ∀ c ∈ t.getLast?, c = '\n'

instance (t : Text) : Decidable (WholeLines t) :=
  decidable_of_iff (t.getLast?.all fun c => c == '\n') (by
    rw [Option.all_eq_true]
    exact forall₂_congr fun c _ => beq_iff_eq)

theorem WholeLines.tail {c : Char} {t : Text} (h : WholeLines (c :: t)) : WholeLines t := by
  intro d hd
  refine h d ?_
  rw [List.getLast?_cons, Option.mem_def.1 hd]
  rfl

/-- A character that is no boundary is not the last one of whole lines. -/
theorem WholeLines.ne_nil {c : Char} {t : Text} (h : WholeLines (c :: t))
    (hc : isLineBreak c = false) : t ≠ [] := by
  rintro rfl
  have hfeed : c = '\n' := h c rfl
  rw [hfeed, isLineBreak_feed] at hc
  cases hc

theorem consLine_append (c : Char) {ls : List Line} (h : ls ≠ []) (more : List Line) :
    consLine c (ls ++ more) = consLine c ls ++ more := by
  cases ls with
  | nil => exact absurd rfl h
  | cons l ls => rfl

theorem lines_ne_nil {t : Text} (h : t ≠ []) : lines t ≠ [] := by
  intro hnil
  have := flatMap_full_lines t
  rw [hnil] at this
  exact h this.symm

/-- **Behind whole lines a text is cut as it is on its own.** -/
theorem lines_append {t : Text} (ht : WholeLines t) (u : Text) :
    lines (t ++ u) = lines t ++ lines u := by
  fun_induction lines t with
  | case1 => rfl
  | case2 rest ih =>
    change lines ('\r' :: '\n' :: (rest ++ u)) = _
    rw [lines, ih ht.tail.tail, List.cons_append]
  | case3 c rest hc hb ih =>
    -- a return at the end would not make whole lines, so no feed comes next to one here
    have hreturn : [c] = ['\r'] → (rest ++ u).head? ≠ some '\n' := by
      intro he
      cases rest with
      | nil =>
        cases he
        exact absurd (ht '\r' rfl) (by decide)
      | cons d more =>
        have hhead : (d :: more).head? ≠ some '\n' := no_feed_behind hc he
        exact hhead
    change lines ([c] ++ (rest ++ u)) = _
    rw [lines_ending (.single hb) hreturn, ih ht.tail, List.cons_append]
  | case4 c rest hc hb ih =>
    have hbreak : isLineBreak c = false := Bool.not_eq_true _ ▸ hb
    rw [List.cons_append, lines_cons_of_not_break hbreak, ih ht.tail,
      consLine_append c (lines_ne_nil (ht.ne_nil hbreak))]

theorem lineTexts_append {t : Text} (ht : WholeLines t) (u : Text) :
    lineTexts (t ++ u) = lineTexts t ++ lineTexts u := by
  unfold lineTexts
  rw [lines_append ht, List.map_append]

theorem wholeLines_append_feed (t : Text) : WholeLines (t ++ ['\n']) := by
  intro c hc
  rw [List.getLast?_concat, Option.mem_def] at hc
  exact (Option.some.inj hc).symm

/-- The characters of a line are characters of the text. -/
theorem subset_of_mem_lineTexts {l t : Text} (hl : l ∈ lineTexts t) : l ⊆ t := by
  obtain ⟨line, hline, rfl⟩ := List.mem_map.1 hl
  intro c hc
  rw [← flatMap_full_lines t]
  exact List.mem_flatMap.2 ⟨line, hline, List.mem_append_left _ hc⟩

end GqlScan.Text
