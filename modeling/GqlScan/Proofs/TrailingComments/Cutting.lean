import GqlScan.Proofs.CleanText

/-!
# What cutting a line takes away

A line is its clean form, blanks, and a number sign with the comment behind it. The sign stands
outside string literals, and whether a later sign does depends on the text before it only through
the state that this text leaves: `Quotation.past`.

Main statements: `clean_trim`, that cutting and trimming commute, and `clean_append_comment`, that a
comment behind a text is cut off whatever it says.
-/

namespace GqlScan

open Text

namespace Comment

/-! ## The state behind a text -/

/-- The state behind a text. -/
def Quotation.past (q : Quotation) (t : Text) : Quotation := t.foldl Quotation.next q

theorem Quotation.past_append (q : Quotation) (t u : Text) :
    q.past (t ++ u) = (q.past t).past u := List.foldl_append

theorem Quotation.past_of_no_quote {t : Text} (h : '"' ∉ t) :
    Quotation.unquoted.past t = .unquoted := by
  induction t with
  | nil => rfl
  | cons c t ih =>
    have hc : c ≠ '"' := fun e => h (e ▸ List.mem_cons_self)
    have hnext : Quotation.unquoted.next c = .unquoted := if_neg hc
    unfold past at ih ⊢
    rw [List.foldl_cons, hnext, ih fun hm => h (List.mem_cons_of_mem c hm)]

/-! ## Trailing comments -/

/-- The text behind the first number sign outside a literal, starting in the given state. -/
def trailingFrom? (q : Quotation) : Text → Option Text
  | [] => none
  | c :: rest => if q = .unquoted ∧ c = '#' then some rest else trailingFrom? (q.next c) rest

/-- The trailing comment of a line, without its sign. -/
def trailing? (line : Text) : Option Text := trailingFrom? .unquoted line

theorem trailingFrom?_append_of_some {q : Quotation} {t w : Text}
    (h : trailingFrom? q t = some w) (v : Text) : trailingFrom? q (t ++ v) = some (w ++ v) := by
  induction t generalizing q with
  | nil => cases h
  | cons c t ih =>
    rw [trailingFrom?] at h
    rw [List.cons_append, trailingFrom?]
    by_cases hc : q = .unquoted ∧ c = '#'
    · rw [if_pos hc] at h ⊢
      cases h
      rfl
    · rw [if_neg hc] at h ⊢
      exact ih h

theorem trailingFrom?_append_of_none {q : Quotation} {t : Text}
    (h : trailingFrom? q t = none) (v : Text) :
    trailingFrom? q (t ++ v) = trailingFrom? (q.past t) v := by
  induction t generalizing q with
  | nil => rfl
  | cons c t ih =>
    rw [trailingFrom?] at h
    rw [List.cons_append, trailingFrom?]
    by_cases hc : q = .unquoted ∧ c = '#'
    · rw [if_pos hc] at h
      cases h
    · rw [if_neg hc] at h ⊢
      exact ih h

theorem cutFrom_append_of_some {q : Quotation} {t w : Text} (h : trailingFrom? q t = some w)
    (v : Text) : cutFrom q (t ++ v) = cutFrom q t := by
  induction t generalizing q with
  | nil => cases h
  | cons c t ih =>
    rw [trailingFrom?] at h
    rw [List.cons_append, cutFrom, cutFrom]
    by_cases hc : q = .unquoted ∧ c = '#'
    · rw [if_pos hc, if_pos hc]
    · rw [if_neg hc] at h
      rw [if_neg hc, if_neg hc, ih h]

theorem cutFrom_append_of_none {q : Quotation} {t : Text} (h : trailingFrom? q t = none)
    (v : Text) : cutFrom q (t ++ v) = t ++ cutFrom (q.past t) v := by
  induction t generalizing q with
  | nil => rfl
  | cons c t ih =>
    rw [trailingFrom?] at h
    rw [List.cons_append, cutFrom]
    by_cases hc : q = .unquoted ∧ c = '#'
    · rw [if_pos hc] at h
      cases h
    · rw [if_neg hc] at h
      rw [if_neg hc, ih h]
      rfl

theorem cut_of_trailing?_eq_none {t : Text} (h : trailing? t = none) : cut t = t := by
  have := cutFrom_append_of_none h []
  rwa [List.append_nil, cutFrom, List.append_nil] at this

theorem trailing?_of_isPrefix {t u : Text} (ht : t <+: u) (h : trailing? u = none) :
    trailing? t = none := by
  obtain ⟨v, rfl⟩ := ht
  cases hw : trailing? t with
  | none => rfl
  | some w =>
    have hsome : trailing? (t ++ v) = some (w ++ v) := trailingFrom?_append_of_some hw v
    rw [h] at hsome
    cases hsome

/-- A cut text ends at the sign of the comment, outside literals. -/
theorem cutFrom_spec {q : Quotation} {t w : Text} (h : trailingFrom? q t = some w) :
    t = cutFrom q t ++ '#' :: w ∧ trailingFrom? q (cutFrom q t) = none
      ∧ q.past (cutFrom q t) = .unquoted := by
  induction t generalizing q with
  | nil => cases h
  | cons c t ih =>
    rw [trailingFrom?] at h
    by_cases hc : q = .unquoted ∧ c = '#'
    · rw [if_pos hc] at h
      cases h
      rw [cutFrom, if_pos hc, hc.2]
      exact ⟨rfl, rfl, hc.1⟩
    · rw [if_neg hc] at h
      obtain ⟨happ, hnone, hover⟩ := ih h
      rw [cutFrom, if_neg hc]
      refine ⟨congrArg (c :: ·) happ, ?_, hover⟩
      rw [trailingFrom?, if_neg hc]
      exact hnone

theorem trailing?_cut (t : Text) : trailing? (cut t) = none := by
  cases h : trailing? t with
  | none => rw [cut_of_trailing?_eq_none h, h]
  | some w => exact (cutFrom_spec h).2.1

theorem trailing?_of_no_sign {t : Text} (h : '#' ∉ t) : trailing? t = none := by
  cases hw : trailing? t with
  | none => rfl
  | some w =>
    refine absurd ?_ h
    rw [(cutFrom_spec hw).1]
    exact List.mem_append_right _ List.mem_cons_self

/-- The comment behind a text without one, of which no literal is open. -/
theorem trailing?_append_sign {t : Text} (h : trailing? t = none)
    (hq : Quotation.unquoted.past t = .unquoted) (w : Text) :
    trailing? (t ++ '#' :: w) = some w := by
  unfold trailing?
  rw [trailingFrom?_append_of_none h, hq]
  rfl

theorem cut_append_sign {t : Text} (h : trailing? t = none)
    (hq : Quotation.unquoted.past t = .unquoted) (w : Text) : cut (t ++ '#' :: w) = t := by
  unfold cut
  rw [cutFrom_append_of_none h, hq]
  exact List.append_nil t

end Comment

/-! ## Clean lines -/

namespace LogicalLine

open Comment

theorem clean_append_blanks {b : Text} (hb : Blanks b) (t : Text) : clean (t ++ b) = clean t := by
  unfold clean
  cases h : trailing? t with
  | some w =>
    unfold cut
    rw [cutFrom_append_of_some h]
  | none =>
    have hcut : cut (t ++ b) = t ++ b := by
      unfold cut
      rw [cutFrom_append_of_none h, cutFrom_of_no_sign _ (hb.not_mem (by decide))]
    rw [hcut, cut_of_trailing?_eq_none h, trim_append_blanks hb]

theorem clean_blanks_append {a : Text} (ha : Blanks a) (t : Text) : clean (a ++ t) = clean t := by
  have hnone : trailing? a = none := trailing?_of_no_sign (ha.not_mem (by decide))
  have hover : Quotation.unquoted.past a = .unquoted :=
    Quotation.past_of_no_quote (ha.not_mem (by decide))
  unfold clean cut
  rw [cutFrom_append_of_none hnone, hover, trim_blanks_append ha]

/-- Blanks around a line do not matter to its clean form. -/
theorem clean_trim (t : Text) : clean (trim t) = clean t := by
  obtain ⟨a, b, ht, ha, hb⟩ := exists_trim_append t
  -- only the right-hand side is split: the trimmed form on the left is a part of it
  conv => rhs; rw [ht]
  rw [clean_blanks_append ha, clean_append_blanks hb]

theorem clean_of_trailing?_eq_none {t : Text} (h : trailing? t = none) : clean t = trim t := by
  unfold clean
  rw [cut_of_trailing?_eq_none h]

theorem clean_eq_self {t : Text} (hs : Stops isBlank t) (he : Solid t) (h : trailing? t = none) :
    clean t = t := by
  rw [clean_of_trailing?_eq_none h, trim_of_stops_of_solid hs he]

/-- A comment behind a text is cut off, whatever it says. -/
theorem clean_append_comment {t b : Text} (hb : Blanks b) (h : trailing? (t ++ b) = none)
    (hq : Quotation.unquoted.past (t ++ b) = .unquoted) (w : Text) :
    clean (t ++ (b ++ '#' :: w)) = clean t := by
  have ht : trailing? t = none := trailing?_of_isPrefix (List.prefix_append t b) h
  rw [← List.append_assoc, clean_of_trailing?_eq_none ht]
  unfold clean
  rw [cut_append_sign h hq, trim_append_blanks hb]

variable {l : Text}

/-- A trimmed line starts with its clean form. -/
theorem cut_eq_clean_append (hl : Stops isBlank l) :
    ∃ b, cut l = clean l ++ b ∧ Blanks b := by
  have hcut : Stops isBlank (cut l) := hl.of_isPrefix (cutFrom_isPrefix _ _)
  obtain ⟨b, hb, hblanks⟩ := exists_trimEnd_append (cut l)
  refine ⟨b, ?_, hblanks⟩
  unfold clean trim
  rw [trimStart_of_stops hcut]
  exact hb

/-- A trimmed line is clean, or its clean form has blanks and the comment behind it. -/
theorem eq_clean_or_comment (hl : Stops isBlank l) (hs : Solid l) :
    clean l = l
      ∨ ∃ b w, trailing? l = some w ∧ Blanks b ∧ l = clean l ++ (b ++ '#' :: w) := by
  cases h : trailing? l with
  | none => exact Or.inl (clean_eq_self hl hs h)
  | some w =>
    obtain ⟨b, hb, hblanks⟩ := cut_eq_clean_append hl
    have hcut : l = cut l ++ '#' :: w := (cutFrom_spec h).1
    refine Or.inr ⟨b, w, rfl, hblanks, ?_⟩
    rw [← List.append_assoc, ← hb]
    exact hcut

theorem clean_isPrefix (hl : Stops isBlank l) : clean l <+: l := by
  obtain ⟨b, hb, -⟩ := cut_eq_clean_append hl
  have hcut : clean l <+: cut l := ⟨b, hb.symm⟩
  exact hcut.trans (cutFrom_isPrefix _ _)

/-- A clean line has no trailing comment left. -/
theorem trailing?_clean (line : Text) : trailing? (clean line) = none := by
  obtain ⟨b, hb, -⟩ := cut_eq_clean_append (stops_trim line)
  rw [clean_trim] at hb
  exact trailing?_of_isPrefix ⟨b, hb.symm⟩ (trailing?_cut (trim line))

theorem clean_clean (line : Text) : clean (clean line) = clean line := by
  rw [clean_of_trailing?_eq_none (trailing?_clean line)]
  exact trim_trim (cut line)

end LogicalLine

end GqlScan
