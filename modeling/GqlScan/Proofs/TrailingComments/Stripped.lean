import GqlScan.Proofs.Lines
import GqlScan.Proofs.TrailingComments.Cutting

/-!
# Documents without trailing comments

`withoutTrailing` takes the trailing comments out of the live lines of a document and leaves all
other lines and all line boundaries as they are. No line becomes empty by that, so the document is
cut into the same lines afterwards, and they are live where they were.

Main statement: `liveText_withoutTrailing`, that the live text loses its trailing comments and
nothing else.
-/

namespace GqlScan.Comment

open Text LogicalLine

/-- Lines of which the live ones are cut. -/
def cutLines (inComment : Bool) : List Line → List Line
  | [] => []
  | line :: rest =>
    let verdict := judge inComment line.text
    (if verdict.live then ⟨cut line.text, line.ending⟩ else line)
      :: cutLines verdict.inComment rest

/-- A document without the trailing comments of its live lines. -/
def withoutTrailing (content : Text) : Text := (cutLines false (lines content)).flatMap Line.full

/-- The trailing comments of the live lines of a document. -/
def trailing (content : Text) : List Text := (liveText content).filterMap trailing?

/-! ## Delimiters of block comments -/

theorem delimiterCount_cons_of_ne {c : Char} (hc : c ≠ '"') (t : Text) :
    delimiterCount (c :: t) = delimiterCount t := by
  rw [delimiterCount]
  rintro rest rfl
  exact absurd rfl hc

/-- No delimiter reaches across a character that is no double quote. -/
theorem delimiterCount_append_cons {c : Char} (hc : c ≠ '"') (t u : Text) :
    delimiterCount (t ++ c :: u) = delimiterCount t + delimiterCount u := by
  fun_induction delimiterCount t with
  | case1 rest ih =>
    show delimiterCount (rest ++ c :: u) + 1 = _
    rw [ih]
    omega
  | case2 d rest hne ih =>
    rw [← ih, List.cons_append, delimiterCount]
    rintro more rfl happ
    -- two quotes at the end of the text are not completed by what follows
    match rest, happ with
    | [], happ => exact hc (List.cons.inj happ).1
    | [e], happ =>
      obtain ⟨-, htail⟩ := List.cons.inj happ
      exact hc (List.cons.inj htail).1
    | e :: f :: rest, happ =>
      obtain ⟨rfl, htail⟩ := List.cons.inj happ
      obtain ⟨rfl, -⟩ := List.cons.inj htail
      exact hne rest rfl rfl
  | case3 =>
    rw [List.nil_append, delimiterCount_cons_of_ne hc]
    omega

theorem delimiterCount_eq_zero_iff {t : Text} :
    delimiterCount t = 0 ↔ ¬ ['"', '"', '"'] <:+: t := by
  fun_induction delimiterCount t with
  | case1 rest ih =>
    have hinfix : ['"', '"', '"'] <:+: '"' :: '"' :: '"' :: rest :=
      (List.prefix_append ['"', '"', '"'] rest).isInfix
    exact ⟨fun h => absurd h (Nat.succ_ne_zero _), fun h => absurd hinfix h⟩
  | case2 c rest hne ih =>
    rw [ih, not_iff_not, List.infix_cons_iff]
    constructor
    · exact Or.inr
    · rintro (⟨v, hv⟩ | h)
      · cases hv
        exact absurd rfl (hne v rfl)
      · exact h
  | case3 =>
    refine ⟨fun _ h => ?_, fun _ => rfl⟩
    have := h.length_le
    revert this
    decide

theorem delimiterCount_of_isInfix {t u : Text} (ht : t <:+: u) (hu : delimiterCount u = 0) :
    delimiterCount t = 0 := by
  rw [delimiterCount_eq_zero_iff] at hu ⊢
  exact fun h => hu (h.trans ht)

/-! ## Live lines -/

/-- A live line starts no line comment, holds no delimiter, and leaves the comment state alone. -/
theorem judge_live {inComment : Bool} {line : Text} (h : (judge inComment line).live = true) :
    isLineComment (trim line) = false ∧ delimiterCount (trim line) = 0 ∧ inComment = false := by
  unfold judge classify at h
  by_cases hline : isLineComment (trim line) = true
  · rw [if_pos hline] at h
    cases h
  · rw [if_neg hline] at h
    by_cases hcount : delimiterCount (trim line) = 0
    · rw [if_pos hcount] at h
      have hopen : inComment = false := by
        cases inComment with
        | false => rfl
        | true => cases h
      exact ⟨Bool.eq_false_iff.2 hline, hcount, hopen⟩
    · rw [if_neg hcount] at h
      cases h

/-- Cutting leaves a live line live. -/
theorem judge_cut {inComment : Bool} {line : Text} (h : (judge inComment line).live = true) :
    judge inComment (cut line) = judge inComment line := by
  obtain ⟨hline, hcount, rfl⟩ := judge_live h
  have hclean : trim (cut line) <+: trim line := by
    have := clean_isPrefix (stops_trim line)
    rwa [clean_trim] at this
  have hhead : isLineComment (trim (cut line)) = false := by
    unfold isLineComment at hline ⊢
    rw [beq_eq_false_iff_ne] at hline ⊢
    intro hc
    obtain ⟨v, hv⟩ := hclean
    refine hline ?_
    rw [← hv, List.head?_append, hc]
    rfl
  rw [judge_of_live hline hcount,
    judge_of_live hhead (delimiterCount_of_isInfix hclean.isInfix hcount)]

/-- A live line does not start with the sign of a comment. -/
theorem head?_of_live {inComment : Bool} {line : Text} (h : (judge inComment line).live = true) :
    line.head? ≠ some '#' := by
  obtain ⟨hline, -, -⟩ := judge_live h
  intro hhead
  cases line with
  | nil => cases hhead
  | cons c t =>
    cases hhead
    have hsign : isBlank '#' = false := by decide
    have htrim : trim ('#' :: t) = '#' :: trimEnd t := by
      unfold trim
      rw [trimStart_of_stops (.cons hsign t)]
      exact trimEnd_append_cons hsign [] t
    rw [htrim] at hline
    cases hline

theorem head?_cut {line : Text} (h : line.head? ≠ some '#') : (cut line).head? = line.head? := by
  cases line with
  | nil => rfl
  | cons c t =>
    have hc : ¬ (Quotation.unquoted = .unquoted ∧ c = '#') := fun hb => h (by rw [hb.2]; rfl)
    unfold cut
    rw [cutFrom, if_neg hc]
    rfl

/-! ## The lines of a document without trailing comments -/

theorem head?_full {line line' : Line} (ht : line'.text.head? = line.text.head?)
    (he : line'.ending = line.ending) : line'.full.head? = line.full.head? := by
  unfold Line.full
  rw [List.head?_append, List.head?_append, ht, he]

theorem head?_flatMap_cutLines (inComment : Bool) (ls : List Line) :
    ((cutLines inComment ls).flatMap Line.full).head? = (ls.flatMap Line.full).head? := by
  induction ls generalizing inComment with
  | nil => rfl
  | cons line rest ih =>
    rw [cutLines, List.flatMap_cons, List.flatMap_cons, List.head?_append, List.head?_append, ih]
    by_cases h : (judge inComment line.text).live = true
    · have hfull : (Line.full ⟨cut line.text, line.ending⟩).head? = line.full.head? :=
        head?_full (head?_cut (head?_of_live h)) rfl
      rw [if_pos h, hfull]
    · rw [if_neg h]

theorem areLines_cutLines (inComment : Bool) {ls : List Line} (h : AreLines ls) :
    AreLines (cutLines inComment ls) := by
  induction h generalizing inComment with
  | nil => exact .nil
  | @last t ht hne =>
    rw [cutLines]
    by_cases hlive : (judge inComment t).live = true
    · rw [if_pos hlive]
      refine .last (fun c hc => ht c ((cutFrom_isPrefix _ _).subset hc)) ?_
      intro hnil
      have hhead := head?_cut (head?_of_live hlive)
      rw [hnil] at hhead
      exact hne (List.head?_eq_none_iff.1 hhead.symm)
    · rw [if_neg hlive]
      exact .last ht hne
  | @cons t e ls ht he hr _ ih =>
    rw [cutLines]
    -- a cut never takes the first character of a line, so no feed comes next to a return
    have hreturn : e = ['\r'] →
        ((cutLines (judge inComment t).inComment ls).flatMap Line.full).head? ≠ some '\n' := by
      rw [head?_flatMap_cutLines]
      exact hr
    by_cases hlive : (judge inComment t).live = true
    · rw [if_pos hlive]
      exact .cons (fun c hc => ht c ((cutFrom_isPrefix _ _).subset hc)) he hreturn (ih _)
    · rw [if_neg hlive]
      exact .cons ht he hreturn (ih _)

theorem lines_withoutTrailing (content : Text) :
    lines (withoutTrailing content) = cutLines false (lines content) :=
  lines_flatMap_full (areLines_cutLines false (areLines_lines content))

theorem liveTexts_cutLines (inComment : Bool) (ls : List Line) :
    liveTexts inComment ((cutLines inComment ls).map Line.text)
      = (liveTexts inComment (ls.map Line.text)).map clean := by
  induction ls generalizing inComment with
  | nil => rfl
  | cons line rest ih =>
    rw [cutLines, List.map_cons, List.map_cons, liveTexts, liveTexts]
    by_cases h : (judge inComment line.text).live = true
    · rw [if_pos h, if_pos h]
      rw [judge_cut h, if_pos h, List.map_cons, clean_trim, ih]
      rfl
    · rw [if_neg h, if_neg h, if_neg h]
      exact ih _

/-- **Without trailing comments the live lines are clean**, and no others are live. -/
theorem liveText_withoutTrailing (content : Text) :
    liveText (withoutTrailing content) = (liveText content).map clean := by
  unfold liveText lineTexts
  rw [lines_withoutTrailing, liveTexts_cutLines]

/-! ## What a trailing comment can say -/

/-- A text that can be a trailing comment: it stays on its line, does not end in a blank, and holds
no delimiter of block comments, for no line that does is live. -/
structure CanTrail (w : Text) : Prop where
  unbroken : Unbroken w
  solid : Solid w
  delimiters : delimiterCount w = 0

/-- A line of the live text is trimmed, starts no comment and holds no delimiter. -/
structure IsLive (l : Text) : Prop where
  unbroken : Unbroken l
  stops : Stops isBlank l
  solid : Solid l
  sign : isLineComment l = false
  delimiters : delimiterCount l = 0

theorem isLive_of_mem_liveTexts {inComment : Bool} {ts : List Text}
    (hts : ∀ t ∈ ts, Unbroken t) {l : Text} (hl : l ∈ liveTexts inComment ts) : IsLive l := by
  induction ts generalizing inComment with
  | nil => cases hl
  | cons t ts ih =>
    have hrest : ∀ u ∈ ts, Unbroken u := fun u hu => hts u (List.mem_cons_of_mem t hu)
    rw [liveTexts] at hl
    by_cases h : (judge inComment t).live = true
    · rw [if_pos h] at hl
      rcases List.mem_cons.1 hl with rfl | hl
      · have hunbroken := hts t List.mem_cons_self
        exact ⟨fun c hc => hunbroken c ((trim_sublist t).subset hc), stops_trim t, solid_trim t,
          (judge_live h).1, (judge_live h).2.1⟩
      · exact ih hrest hl
    · rw [if_neg h] at hl
      exact ih hrest hl

theorem isLive_of_mem_liveText {content l : Text} (hl : l ∈ liveText content) : IsLive l := by
  refine isLive_of_mem_liveTexts ?_ hl
  intro t ht
  obtain ⟨line, hline, rfl⟩ := List.mem_map.1 ht
  exact (areLines_lines content).unbroken line hline

theorem IsLive.canTrail {l w : Text} (h : IsLive l) (hw : trailing? l = some w) : CanTrail w := by
  have happ := (cutFrom_spec hw).1
  have hsuffix : w <:+ l := by
    rw [happ]
    exact (List.suffix_cons '#' w).trans (List.suffix_append _ _)
  refine ⟨fun c hc => h.unbroken c (hsuffix.subset hc), ?_,
    delimiterCount_of_isInfix hsuffix.isInfix h.delimiters⟩
  intro c hc
  obtain ⟨v, rfl⟩ := hsuffix
  refine h.solid c ?_
  rw [List.getLast?_append]
  cases hw : w.getLast? with
  | none =>
    rw [hw] at hc
    cases hc
  | some d =>
    rw [hw] at hc
    exact hc

theorem canTrail_of_mem_trailing {content w : Text} (h : w ∈ trailing content) : CanTrail w := by
  obtain ⟨l, hl, hw⟩ := List.mem_filterMap.1 h
  exact (isLive_of_mem_liveText hl).canTrail hw

end GqlScan.Comment
