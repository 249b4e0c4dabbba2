import GqlScan.Proofs.TrailingComments.Cutting

/-!
# Number signs outside string literals

Whether a position of a line is inside a string literal can be told from the text before it: it is
when an odd number of the double quotes there delimit literals. Outside of literals every double quote
does. Inside of one a double quote does unless an unescaped backslash stands directly in front of it,
and that is so when the backslashes there are odd in number.

A line is cut at its first number sign that is not inside a literal.

Main statements: `past_take`, that the state of a cut is told by quotes and backslashes;
`trailing?_eq_none_iff`; and `cut_at_first_sign`.
-/

namespace GqlScan.Comment

open Text

/-! ## Positions inside literals -/

/-- The number of backslashes in a row directly in front of a position. Each escapes the next, so the
last of them is unescaped when their number is odd. -/
def backslashesBefore (t : Text) : Nat → Nat
  | 0 => 0
  | i + 1 => if t[i]? = some '\\' then backslashesBefore t i + 1 else 0

/-- The number of double quotes in front of a position that delimit literals. Inside a literal a
double quote does not when an unescaped backslash stands directly in front of it. -/
def delimitersBefore (t : Text) : Nat → Nat
  | 0 => 0
  | i + 1 =>
    if t[i]? = some '"' ∧ (delimitersBefore t i % 2 = 0 ∨ backslashesBefore t i % 2 = 0) then
      delimitersBefore t i + 1
    else delimitersBefore t i

/-- A position inside a literal. -/
def Quoted (t : Text) (i : Nat) : Prop := delimitersBefore t i % 2 = 1

instance (t : Text) (i : Nat) : Decidable (Quoted t i) := inferInstanceAs (Decidable (_ = _))

/-- A number sign outside of literals. -/
def SignAt (t : Text) (i : Nat) : Prop := t[i]? = some '#' ∧ ¬ Quoted t i

section

variable {t : Text} {i : Nat} {c : Char} (hc : t[i]? = some c)

include hc

theorem backslashesBefore_succ :
    backslashesBefore t (i + 1) = if c = '\\' then backslashesBefore t i + 1 else 0 := by
  simp only [backslashesBefore, hc, Option.some.injEq]

theorem delimitersBefore_succ :
    delimitersBefore t (i + 1)
      = if c = '"' ∧ (delimitersBefore t i % 2 = 0 ∨ backslashesBefore t i % 2 = 0) then
          delimitersBefore t i + 1
        else delimitersBefore t i := by
  simp only [delimitersBefore, hc, Option.some.injEq]

end

/-- What stands behind a position does not matter to it. -/
theorem backslashesBefore_append {t : Text} {i : Nat} (hi : i ≤ t.length) (u : Text) :
    backslashesBefore (t ++ u) i = backslashesBefore t i := by
  induction i with
  | zero => rfl
  | succ i ih =>
    rw [backslashesBefore, backslashesBefore, List.getElem?_append_left hi, ih (by omega)]

theorem delimitersBefore_append {t : Text} {i : Nat} (hi : i ≤ t.length) (u : Text) :
    delimitersBefore (t ++ u) i = delimitersBefore t i := by
  induction i with
  | zero => rfl
  | succ i ih =>
    rw [delimitersBefore, delimitersBefore, List.getElem?_append_left hi, ih (by omega),
      backslashesBefore_append (by omega)]

theorem signAt_append {t : Text} {i : Nat} (hi : i < t.length) (u : Text) :
    SignAt (t ++ u) i ↔ SignAt t i := by
  unfold SignAt Quoted
  rw [List.getElem?_append_left hi, delimitersBefore_append (Nat.le_of_lt hi)]

/-! ## The state at a position -/

/-- The state in which a cut reaches a position, as quotes and backslashes tell it. -/
def Quotation.told (t : Text) (i : Nat) : Quotation :=
  if delimitersBefore t i % 2 = 0 then .unquoted
  else if backslashesBefore t i % 2 = 0 then .quoted
  else .escaped

namespace Quotation

section

variable {t : Text} {i : Nat}

theorem told_outside (h : delimitersBefore t i % 2 = 0) : told t i = .unquoted := if_pos h

theorem told_inside (h : delimitersBefore t i % 2 ≠ 0) (hb : backslashesBefore t i % 2 = 0) :
    told t i = .quoted := by
  unfold told
  rw [if_neg h, if_pos hb]

theorem told_escaped (h : delimitersBefore t i % 2 ≠ 0) (hb : backslashesBefore t i % 2 ≠ 0) :
    told t i = .escaped := by
  unfold told
  rw [if_neg h, if_neg hb]

theorem told_eq_unquoted_iff : told t i = .unquoted ↔ ¬ Quoted t i := by
  unfold Quoted
  by_cases h : delimitersBefore t i % 2 = 0
  · exact iff_of_true (told_outside h) (by omega)
  · refine iff_of_false ?_ (by omega)
    by_cases hb : backslashesBefore t i % 2 = 0
    · rw [told_inside h hb]
      exact Quotation.noConfusion
    · rw [told_escaped h hb]
      exact Quotation.noConfusion

/-- One character further on. -/
theorem next_told {c : Char} (hc : t[i]? = some c) : (told t i).next c = told t (i + 1) := by
  have hd := delimitersBefore_succ hc
  have hb := backslashesBefore_succ hc
  by_cases heven : delimitersBefore t i % 2 = 0
  · -- outside of literals: a double quote opens one, and no backslash stands in front of its text
    rw [told_outside heven, next]
    by_cases hquote : c = '"'
    · rw [if_pos ⟨hquote, .inl heven⟩] at hd
      rw [hquote, if_neg (by decide)] at hb
      rw [if_pos hquote, told_inside (by omega) (by omega)]
    · rw [if_neg fun h => hquote h.1] at hd
      rw [if_neg hquote, told_outside (by omega)]
  · by_cases hslashes : backslashesBefore t i % 2 = 0
    · -- inside of one, with no unescaped backslash in front
      rw [told_inside heven hslashes, next]
      by_cases hslash : c = '\\'
      · rw [if_neg fun h => absurd (hslash.symm.trans h.1) (by decide)] at hd
        rw [if_pos hslash] at hb
        rw [if_pos hslash, told_escaped (by omega) (by omega)]
      · rw [if_neg hslash] at hb
        rw [if_neg hslash]
        by_cases hquote : c = '"'
        · rw [if_pos ⟨hquote, .inr hslashes⟩] at hd
          rw [if_pos hquote, told_outside (by omega)]
        · rw [if_neg fun h => hquote h.1] at hd
          rw [if_neg hquote, told_inside (by omega) (by omega)]
    · -- behind an unescaped backslash: no quote closes the literal, and no backslash escapes
      rw [if_neg fun h => h.2.elim heven hslashes] at hd
      have heven' : backslashesBefore t (i + 1) % 2 = 0 := by
        split at hb <;> omega
      rw [told_escaped heven hslashes, next, told_inside (by omega) heven']

end

end Quotation

/-- **The state of a cut is told by the quotes and the backslashes before it.** -/
theorem past_take {t : Text} {i : Nat} (hi : i ≤ t.length) :
    Quotation.unquoted.past (t.take i) = Quotation.told t i := by
  induction i with
  | zero => rfl
  | succ i ih =>
    have hc : t[i]? = some t[i] := List.getElem?_eq_getElem hi
    rw [← List.take_append_getElem hi, Quotation.past_append, ih (Nat.le_of_lt hi),
      ← Quotation.next_told hc]
    rfl

/-! ## The first sign -/

/-- The sign of a trailing comment is outside of literals. -/
theorem signAt_length_cut {t w : Text} (h : trailing? t = some w) : SignAt t (cut t).length := by
  have ht : t = cut t ++ '#' :: w := (cutFrom_spec h).1
  have hprefix : cut t <+: t := cutFrom_isPrefix _ t
  have hsign : (cut t ++ '#' :: w)[(cut t).length]? = some '#' := by
    rw [List.getElem?_append_right (Nat.le_refl _), Nat.sub_self, List.getElem?_cons_zero]
  rw [← ht] at hsign
  refine ⟨hsign, Quotation.told_eq_unquoted_iff.1 ?_⟩
  rw [← past_take hprefix.length_le, ← List.prefix_iff_eq_take.1 hprefix]
  exact (cutFrom_spec h).2.2

/-- A line has a trailing comment when a number sign of it is outside of literals. -/
theorem trailing?_eq_none_iff {t : Text} : trailing? t = none ↔ ∀ i, ¬ SignAt t i := by
  constructor
  · rintro h i ⟨hsign, hquoted⟩
    obtain ⟨hi, hc⟩ := List.getElem?_eq_some_iff.1 hsign
    have hstate : Quotation.unquoted.past (t.take i) = .unquoted := by
      rw [past_take (Nat.le_of_lt hi)]
      exact Quotation.told_eq_unquoted_iff.2 hquoted
    have hfront := trailing?_of_isPrefix (List.take_prefix i t) h
    have hsome := trailing?_append_sign hfront hstate (t.drop (i + 1))
    rw [← hc, ← List.drop_eq_getElem_cons hi, List.take_append_drop, h] at hsome
    cases hsome
  · intro h
    cases hw : trailing? t with
    | none => rfl
    | some w => exact absurd (signAt_length_cut hw) (h _)

/-- A cut line has no sign left. -/
theorem not_signAt_cut (t : Text) (i : Nat) : ¬ SignAt (cut t) i :=
  trailing?_eq_none_iff.1 (trailing?_cut t) i

/-- No sign stands in front of the place where a line is cut. -/
theorem not_signAt_of_lt {t : Text} {i : Nat} (hi : i < (cut t).length) : ¬ SignAt t i := by
  obtain ⟨u, hu⟩ : cut t <+: t := cutFrom_isPrefix _ t
  rw [← hu, signAt_append hi]
  exact not_signAt_cut t i

/--
**A line is cut at its first number sign outside of string literals.**

What is left is the front part of the line, up to the first such sign, or the whole line when there is
none. So nothing is left to be cut a second time, and a line with more text behind it is cut where it
was cut before, or, when it has no such sign and leaves no literal open, where the text behind it is.
-/
theorem cut_at_first_sign (t : Text) :
    cut t <+: t
      ∧ ((cut t).length < t.length →
          SignAt t (cut t).length ∧ ∀ i < (cut t).length, ¬ SignAt t i)
      ∧ (cut t = t → ∀ i, ¬ SignAt t i)
      ∧ cut (cut t) = cut t
      ∧ ∀ u, ((∃ i, SignAt t i) → cut (t ++ u) = cut t)
          ∧ ((∀ i, ¬ SignAt t i) → ¬ Quoted t t.length → cut (t ++ u) = t ++ cut u) := by
  refine ⟨cutFrom_isPrefix _ t, fun hshort => ?_, fun h i => ?_, ?_, fun u => ⟨?_, fun h hq => ?_⟩⟩
  · cases hw : trailing? t with
    | none =>
      rw [cut_of_trailing?_eq_none hw] at hshort
      exact absurd hshort (Nat.lt_irrefl _)
    | some w => exact ⟨signAt_length_cut hw, fun i => not_signAt_of_lt⟩
  · rw [← h]
    exact not_signAt_cut t i
  · exact cut_of_trailing?_eq_none (trailing?_cut t)
  · rintro ⟨i, hsign⟩
    cases hw : trailing? t with
    | none => exact absurd hsign (trailing?_eq_none_iff.1 hw i)
    | some w => exact cutFrom_append_of_some hw u
  · have hstate : Quotation.unquoted.past t = .unquoted := by
      rw [← List.take_length (l := t), past_take (Nat.le_refl _)]
      exact Quotation.told_eq_unquoted_iff.2 hq
    have happ := cutFrom_append_of_none (trailing?_eq_none_iff.2 h) u
    rw [hstate] at happ
    exact happ

/-- A literal with an escaped quote and an escaped backslash, and a sign inside and behind it. -/
def escapedLine : Text := "\\\"a \\\" # \\\\\" # b".toList

/-- An escaped quote does not end a literal, an escaped backslash escapes nothing, and outside of
literals a backslash is a character like any other. -/
theorem cut_at_first_sign_escapedLine :
    cut escapedLine = "\\\"a \\\" # \\\\\" ".toList
      ∧ SignAt escapedLine 13 ∧ (∀ i < 13, ¬ SignAt escapedLine i)
      ∧ cut (escapedLine ++ ['"']) = cut escapedLine := by
  have hcut : (cut escapedLine).length = 13 := by decide
  have hsign := (cut_at_first_sign escapedLine).2.1 (by decide)
  rw [hcut] at hsign
  exact ⟨by decide, hsign.1, hsign.2,
    ((cut_at_first_sign escapedLine).2.2.2.2 _).1 ⟨13, hsign.1⟩⟩

end GqlScan.Comment
