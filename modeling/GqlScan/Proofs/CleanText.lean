import Mathlib.Data.List.TakeWhile
import GqlScan.Proofs.LiveText
import GqlScan.Proofs.Readers
import GqlScan.Selection.LogicalLine

/-!
# Trimmed and cut lines

What trimming takes away at the end of a text is blank, so a text is its trimmed form with blanks
behind it; and a text without a number sign is cut nowhere. Lines that are already clean are their
own logical lines when no parenthesis joins them.
-/

namespace GqlScan

open Text

namespace Text

/-- A text of blanks. -/
def Blanks (b : Text) : Prop := ∀ c ∈ b, isBlank c = true

instance (b : Text) : Decidable (Blanks b) :=
  decidable_of_iff (b.all isBlank = true) List.all_eq_true

theorem Blanks.nil : Blanks [] := fun _ hc => by cases hc

theorem Blanks.space : Blanks [' '] := by decide

theorem Blanks.not_mem {b : Text} (hb : Blanks b) {c : Char} (hc : isBlank c = false) : c ∉ b := by
  intro hm
  rw [hb c hm] at hc
  cases hc

/-- A text that does not end in a blank. -/
def Solid (t : Text) : Prop := ∀ c ∈ t.getLast?, isBlank c = false

theorem solid_iff_stops_reverse {t : Text} : Solid t ↔ Stops isBlank t.reverse := by
  unfold Solid Stops
  rw [List.head?_reverse]

theorem trimEnd_eq (t : Text) : trimEnd t = (trimStart t.reverse).reverse := rfl

theorem trimEnd_of_solid {t : Text} (h : Solid t) : trimEnd t = t := by
  rw [trimEnd_eq, trimStart_of_stops (solid_iff_stops_reverse.1 h), List.reverse_reverse]

theorem solid_trimEnd (t : Text) : Solid (trimEnd t) := by
  rw [solid_iff_stops_reverse, trimEnd_eq, List.reverse_reverse]
  exact stops_trimStart _

theorem Solid.append {u : Text} (h : Solid u) (hne : u ≠ []) (t : Text) :
    Solid (t ++ u) := by
  intro c hc
  rw [List.getLast?_append_of_ne_nil _ hne] at hc
  exact h c hc

theorem trimStart_eq_nil_iff {t : Text} : trimStart t = [] ↔ Blanks t :=
  List.dropWhile_eq_nil_iff

/-- Trimming at the end takes away blanks. -/
theorem exists_trimEnd_append (t : Text) :
    ∃ b, t = trimEnd t ++ b ∧ Blanks b := by
  refine ⟨(t.reverse.takeWhile isBlank).reverse, ?_, ?_⟩
  · rw [trimEnd_eq, ← List.reverse_append]
    unfold trimStart
    rw [List.takeWhile_append_dropWhile, List.reverse_reverse]
  · intro c hc
    exact List.mem_takeWhile_imp (List.mem_reverse.1 hc)

theorem trim_of_stops_of_solid {t : Text} (h : Stops isBlank t) (hs : Solid t) : trim t = t := by
  unfold trim
  rw [trimStart_of_stops h, trimEnd_of_solid hs]

theorem trimStart_blanks_append {b : Text} (hb : Blanks b) (t : Text) :
    trimStart (b ++ t) = trimStart t :=
  trimStart_append_of_eq_nil (trimStart_eq_nil_iff.2 hb) t

theorem trimStart_trimStart (t : Text) : trimStart (trimStart t) = trimStart t :=
  trimStart_of_stops (stops_trimStart t)

/-- Blanks at the front are trimmed away. -/
theorem trim_blanks_append {b : Text} (hb : Blanks b) (t : Text) :
    trim (b ++ t) = trim t := by
  unfold trim
  rw [trimStart_blanks_append hb]

/-- Trimming at the front takes away blanks. -/
theorem exists_trimStart_append (t : Text) : ∃ b, t = b ++ trimStart t ∧ Blanks b :=
  ⟨t.takeWhile isBlank, List.takeWhile_append_dropWhile.symm,
    fun _ hc => List.mem_takeWhile_imp hc⟩

theorem Stops.of_isPrefix {p : Char → Bool} {t u : Text} (h : Stops p u) (ht : t <+: u) :
    Stops p t := by
  obtain ⟨v, rfl⟩ := ht
  intro c hc
  cases t with
  | nil => cases hc
  | cons d t => exact h c hc

theorem trimEnd_isPrefix (t : Text) : trimEnd t <+: t := by
  obtain ⟨b, hb, -⟩ := exists_trimEnd_append t
  exact ⟨b, hb.symm⟩

theorem trimEnd_append_of_blanks {b : Text} (hb : Blanks b) (t : Text) :
    trimEnd (t ++ b) = trimEnd t := by
  have hrev : Blanks b.reverse := fun c hc => hb c (List.mem_reverse.1 hc)
  rw [trimEnd_eq, trimEnd_eq, List.reverse_append, trimStart_blanks_append hrev]

/-- What is not blank stops trimming at the end. -/
theorem trimEnd_append_cons {c : Char} (hc : isBlank c = false) (t u : Text) :
    trimEnd (t ++ c :: u) = t ++ c :: trimEnd u := by
  have hstops : Stops isBlank (c :: t.reverse) := .cons hc _
  have hrev : (t ++ c :: u).reverse = u.reverse ++ c :: t.reverse := by simp
  rw [trimEnd_eq, trimEnd_eq, hrev]
  by_cases hu : trimStart u.reverse = []
  · rw [trimStart_append_of_eq_nil hu, trimStart_of_stops hstops, hu]
    simp
  · rw [trimStart_append_of_ne_nil hu]
    simp

/-- A text that ends in no blank is not cut short, whatever follows it. -/
theorem trimEnd_append_of_solid {t : Text} (hs : Solid t) (hne : t ≠ []) (u : Text) :
    trimEnd (t ++ u) = t ++ trimEnd u := by
  have hsplit : t.dropLast ++ [t.getLast hne] = t := List.dropLast_append_getLast hne
  have hlast : isBlank (t.getLast hne) = false := hs _ (List.getLast?_eq_some_getLast hne)
  rw [← hsplit, List.append_assoc, List.append_assoc]
  exact trimEnd_append_cons hlast _ u

theorem trim_append_blanks {b : Text} (hb : Blanks b) (t : Text) : trim (t ++ b) = trim t := by
  unfold trim
  by_cases ht : trimStart t = []
  · rw [trimStart_append_of_eq_nil ht, ht, trimStart_eq_nil_iff.2 hb]
  · rw [trimStart_append_of_ne_nil ht, trimEnd_append_of_blanks hb]

/-- What stands at neither end of a trimmed text is kept. -/
theorem trim_append_of_solid {t : Text} (h : Stops isBlank t) (hs : Solid t) (hne : t ≠ [])
    (u : Text) : trim (t ++ u) = t ++ trimEnd u := by
  unfold trim
  rw [trimStart_of_stops (h.append hne u), trimEnd_append_of_solid hs hne]

theorem trim_of_blanks {b : Text} (hb : Blanks b) : trim b = [] := by
  unfold trim
  rw [trimStart_eq_nil_iff.2 hb]
  rfl

theorem stops_trim (t : Text) : Stops isBlank (trim t) :=
  (stops_trimStart t).of_isPrefix (trimEnd_isPrefix _)

theorem solid_trim (t : Text) : Solid (trim t) := solid_trimEnd _

theorem trim_trim (t : Text) : trim (trim t) = trim t :=
  trim_of_stops_of_solid (stops_trim t) (solid_trim t)

/-- A text is its trimmed form between blanks. -/
theorem exists_trim_append (t : Text) :
    ∃ a b, t = a ++ (trim t ++ b) ∧ Blanks a ∧ Blanks b := by
  obtain ⟨a, ha, hfront⟩ := exists_trimStart_append t
  obtain ⟨b, hb, hback⟩ := exists_trimEnd_append (trimStart t)
  refine ⟨a, b, ?_, hfront, hback⟩
  unfold trim
  rw [← hb]
  exact ha

end Text

namespace Comment

theorem cutFrom_of_no_sign (q : Quotation) {t : Text} (h : '#' ∉ t) : cutFrom q t = t := by
  induction t generalizing q with
  | nil => rfl
  | cons c t ih =>
    have hc : c ≠ '#' := fun e => h (e ▸ List.mem_cons_self)
    rw [cutFrom, if_neg fun hq => hc hq.2, ih _ fun hm => h (List.mem_cons_of_mem c hm)]

/-- A text without a number sign has no trailing comment. -/
theorem cut_of_no_sign {t : Text} (h : '#' ∉ t) : cut t = t := cutFrom_of_no_sign .unquoted h

/-- A text without a double quote holds no delimiter. -/
theorem delimiterCount_eq_zero {t : Text} (h : '"' ∉ t) : delimiterCount t = 0 := by
  fun_induction delimiterCount t with
  | case1 rest ih => exact absurd List.mem_cons_self h
  | case2 c rest hne ih => exact ih fun hm => h (List.mem_cons_of_mem c hm)
  | case3 => rfl

/-- A line without number signs and double quotes is live. -/
theorem live_of_no_sign {l : Text} (h : '#' ∉ l ∧ '"' ∉ l) :
    isLineComment (trim l) = false ∧ delimiterCount (trim l) = 0 := by
  have hsub := (LogicalLine.trim_sublist l).subset
  refine ⟨?_, delimiterCount_eq_zero fun hq => h.2 (hsub hq)⟩
  unfold isLineComment
  rw [beq_eq_false_iff_ne]
  exact fun hc => h.1 (hsub (List.mem_of_head? hc))

theorem liveTexts_eq_map_trim {lines : List Text} (h : ∀ l ∈ lines, '#' ∉ l ∧ '"' ∉ l) :
    liveTexts false lines = lines.map trim :=
  liveTexts_of_live fun l hl => live_of_no_sign (h l hl)

end Comment

namespace LogicalLine

theorem gather_of_no_parens {lines : List Text}
    (h : ∀ l ∈ lines, '(' ∉ l ∧ ')' ∉ l) :
    gather [] 0 lines = (lines.filter fun l => l ≠ []).map fun l => [l] := by
  induction lines with
  | nil => rfl
  | cons l lines ih =>
    have hrest := ih fun m hm => h m (List.mem_cons_of_mem l hm)
    obtain ⟨hopen, hclose⟩ := h l List.mem_cons_self
    rw [gather]
    by_cases hl : l = []
    · rw [if_pos ⟨hl, rfl⟩, hrest, List.filter_cons_of_neg (by simp [hl])]
    · have hcount : 0 + l.count '(' ≤ l.count ')' := by
        rw [List.count_eq_zero.2 hopen, List.count_eq_zero.2 hclose]
      rw [if_neg fun hb => hl hb.1, if_pos hcount, hrest, List.filter_cons_of_pos (by simp [hl])]
      rfl

/-- Clean lines without parentheses are their own logical lines, empty ones left out. -/
theorem ofLines_of_clean {lines : List Text}
    (h : ∀ l ∈ lines, clean l = l ∧ '(' ∉ l ∧ ')' ∉ l) :
    ofLines lines = lines.filter fun l => l ≠ [] := by
  have hclean : lines.map clean = lines := by
    rw [List.map_congr_left fun l hl => (h l hl).1, List.map_id']
  unfold ofLines groups
  rw [hclean, gather_of_no_parens fun l hl => (h l hl).2, List.map_map]
  have hjoined : (joined ∘ fun l : Text => [l]) = id := by
    funext l
    rfl
  rw [hjoined, List.map_id]

end LogicalLine

end GqlScan
