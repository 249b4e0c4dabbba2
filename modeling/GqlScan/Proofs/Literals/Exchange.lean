import GqlScan.Proofs.Blocks
import GqlScan.Proofs.TrailingComments.Stripped
import GqlScan.Selection.LineShape

/-!
# Exchanging the contents of string literals

Most scans take the contents of a string literal for text like any other: they count the braces and
parentheses in it and look for headers there. A content in which none of them finds anything is
harmless. Texts that agree but for harmless contents behind the same quotes are cut into lines,
trimmed, cut at comments and searched for headers and braces alike.

Main statements, for texts in which contents are exchanged: `Exchanged.lineTexts` and
`Exchanged.liveTexts`, `Exchanged.locate?` for headers, and `Exchanged.takeFrom` for blocks.
-/

namespace GqlScan

open Text

namespace Text

theorem trimEnd_cons (c : Char) (t : Text) :
    trimEnd (c :: t) = if trimEnd t = [] ∧ isBlank c = true then [] else c :: trimEnd t := by
  obtain ⟨b, ht, hb⟩ := exists_trimEnd_append t
  have hcut : trimEnd (c :: t) = trimEnd (c :: trimEnd t) := by
    conv => lhs; rw [ht]
    exact trimEnd_append_of_blanks hb (c :: trimEnd t)
  rw [hcut]
  by_cases hnil : trimEnd t = []
  · rw [hnil]
    by_cases hc : isBlank c = true
    · have hblanks : Blanks [c] := List.forall_mem_singleton.2 hc
      rw [if_pos ⟨rfl, hc⟩]
      exact trimEnd_append_of_blanks hblanks []
    · rw [if_neg fun h => hc h.2]
      exact trimEnd_append_cons (Bool.eq_false_iff.2 hc) [] []
  · rw [if_neg fun h => hnil h.1]
    exact trimEnd_of_solid ((solid_trimEnd t).append hnil [c])

theorem after_cons_self (c : Char) (t : Text) : after c (c :: t) = t := by
  unfold after
  rw [List.dropWhile_cons_of_neg (by simp), List.tail_cons]

theorem after_cons_of_ne {c d : Char} (h : d ≠ c) (t : Text) : after c (d :: t) = after c t :=
  after_append_of_not_mem (fun hm => h (List.mem_singleton.1 hm).symm) t

end Text

namespace Literal

/-! ## Contents -/

/-- What stands between the quotes of a literal on one line that needs no escapes. -/
structure IsContent (w : Text) : Prop where
  quote : '"' ∉ w
  backslash : '\\' ∉ w
  unbroken : Unbroken w

/-- A content in which no scan finds what it looks for. -/
structure Harmless (w : Text) : Prop extends IsContent w where
  -- with no content between them, the quotes may make a delimiter with those of a neighbour
  ne_nil : w ≠ []
  header : Header.locate? w = none
  opening : '{' ∉ w
  closing : '}' ∉ w
  -- behind a block that starts inside a literal, the next quote opens one where a literal ends
  sign : '#' ∉ w
  balanced : w.count '(' = w.count ')'
  -- arguments end at the first closing parenthesis, so behind it further ones have to open
  reopens : ')' ∈ w → LineShape.skipDirectives (after ')' w ++ ['"', ')']) = []

instance (w : Text) : Decidable (IsContent w) :=
  decidable_of_iff ('"' ∉ w ∧ '\\' ∉ w ∧ Unbroken w)
    ⟨fun ⟨h1, h2, h3⟩ => ⟨h1, h2, h3⟩, fun ⟨h1, h2, h3⟩ => ⟨h1, h2, h3⟩⟩

instance (w : Text) : Decidable (Harmless w) :=
  decidable_of_iff
    (IsContent w ∧ w ≠ [] ∧ Header.locate? w = none ∧ '{' ∉ w ∧ '}' ∉ w ∧ '#' ∉ w
      ∧ w.count '(' = w.count ')'
      ∧ (')' ∈ w → LineShape.skipDirectives (after ')' w ++ ['"', ')']) = []))
    ⟨fun ⟨h1, h2, h3, h4, h5, h6, h7, h8⟩ => ⟨h1, h2, h3, h4, h5, h6, h7, h8⟩,
      fun ⟨h1, h2, h3, h4, h5, h6, h7, h8⟩ => ⟨h1, h2, h3, h4, h5, h6, h7, h8⟩⟩

/-- Texts that agree but for some literals, which have the content `u` in one of them and `w` in
the other. -/
inductive Exchanged (u w : Text) : Text → Text → Prop where
  | nil : Exchanged u w [] []
  | cons (c : Char) {t t' : Text} : Exchanged u w t t' → Exchanged u w (c :: t) (c :: t')
  | literal {t t' : Text} : Exchanged u w t t' →
      Exchanged u w ('"' :: (u ++ '"' :: t)) ('"' :: (w ++ '"' :: t'))

/-- Lines that agree but for some literals. -/
abbrev ExchangedLines (u w : Text) : List Text → List Text → Prop :=
  List.Forall₂ (Exchanged u w)

/-- Two readings that find the same, with texts behind it that agree but for some literals. -/
abbrev ExchangedBehind {α : Type} (u w : Text) : Option (α × Text) → Option (α × Text) → Prop :=
  Option.Rel fun p q => p.1 = q.1 ∧ Exchanged u w p.2 q.2

namespace Exchanged

variable {u w t t' : Text}

theorem refl (u w t : Text) : Exchanged u w t t := by
  induction t with
  | nil => exact .nil
  | cons c t ih => exact .cons c ih

theorem append {s s' : Text} (hs : Exchanged u w s s') (h : Exchanged u w t t') :
    Exchanged u w (s ++ t) (s' ++ t') := by
  induction hs with
  | nil => exact h
  | cons c _ ih => exact .cons c ih
  | literal _ ih =>
    rw [List.cons_append, List.cons_append, List.append_assoc, List.append_assoc]
    exact .literal ih

theorem head?_eq (h : Exchanged u w t t') : t.head? = t'.head? := by
  cases h <;> rfl

theorem eq_nil_iff (h : Exchanged u w t t') : t = [] ↔ t' = [] := by
  rw [← List.head?_eq_none_iff, ← List.head?_eq_none_iff, h.head?_eq]

/-- Texts in which literals are exchanged are the same or both hold a quote. -/
theorem eq_or_quote (h : Exchanged u w t t') : t = t' ∨ '"' ∈ t ∧ '"' ∈ t' := by
  induction h with
  | nil => exact .inl rfl
  | cons c _ ih =>
    rcases ih with rfl | ⟨h, h'⟩
    · exact .inl rfl
    · exact .inr ⟨List.mem_cons_of_mem c h, List.mem_cons_of_mem c h'⟩
  | literal _ _ => exact .inr ⟨List.mem_cons_self, List.mem_cons_self⟩

/-! ## Runs of characters -/

theorem takeWhile_eq {p : Char → Bool} (hp : p '"' = false) (h : Exchanged u w t t') :
    t.takeWhile p = t'.takeWhile p := by
  have hquote : ¬ p '"' = true := by rw [hp]; decide
  induction h with
  | nil => rfl
  | cons c _ ih => rw [List.takeWhile_cons, List.takeWhile_cons, ih]
  | literal _ _ => rw [List.takeWhile_cons_of_neg hquote, List.takeWhile_cons_of_neg hquote]

theorem dropWhile {p : Char → Bool} (hp : p '"' = false) (h : Exchanged u w t t') :
    Exchanged u w (t.dropWhile p) (t'.dropWhile p) := by
  have hquote : ¬ p '"' = true := by rw [hp]; decide
  induction h with
  | nil => exact .nil
  | cons c ht ih =>
    rw [List.dropWhile_cons, List.dropWhile_cons]
    split
    · exact ih
    · exact .cons c ht
  | literal ht _ =>
    rw [List.dropWhile_cons_of_neg hquote, List.dropWhile_cons_of_neg hquote]
    exact .literal ht

theorem trimStart (h : Exchanged u w t t') : Exchanged u w (trimStart t) (trimStart t') :=
  h.dropWhile (by decide)

theorem trimEnd (h : Exchanged u w t t') : Exchanged u w (trimEnd t) (trimEnd t') := by
  have hquote : isBlank '"' = false := by decide
  induction h with
  | nil => exact .nil
  | @cons c t t' _ ih =>
    -- a blank is dropped when nothing is left behind it, in both texts or in none
    rw [trimEnd_cons, trimEnd_cons]
    by_cases hc : Text.trimEnd t = [] ∧ isBlank c = true
    · rw [if_pos hc, if_pos ⟨ih.eq_nil_iff.1 hc.1, hc.2⟩]
      exact .nil
    · rw [if_neg hc, if_neg fun hc' => hc ⟨ih.eq_nil_iff.2 hc'.1, hc'.2⟩]
      exact .cons c ih
  | @literal t t' _ ih =>
    have hkept : ∀ v x : Text,
        Text.trimEnd ('"' :: (v ++ '"' :: x)) = '"' :: (v ++ '"' :: Text.trimEnd x) :=
      fun v x => trimEnd_append_cons hquote ('"' :: v) x
    rw [hkept, hkept]
    exact .literal ih

theorem trim (h : Exchanged u w t t') : Exchanged u w (trim t) (trim t') := h.trimStart.trimEnd

/-! ## Counting and cutting -/

/-- What the contents hold as often as each other, the texts hold as often as each other. -/
theorem count_add_count {a b : Char}
    (hcount : u.count a + w.count b = w.count a + u.count b) (h : Exchanged u w t t') :
    t.count a + t'.count b = t'.count a + t.count b := by
  induction h with
  | nil => rfl
  | cons c _ ih =>
    rw [List.count_cons, List.count_cons, List.count_cons, List.count_cons]
    omega
  | literal _ ih =>
    simp only [List.count_cons, List.count_append]
    omega

/-- A character that neither content holds stands equally often in both texts. -/
theorem count_eq {c : Char} (hu : c ∉ u) (hw : c ∉ w) (h : Exchanged u w t t') :
    t.count c = t'.count c := by
  induction h with
  | nil => rfl
  | cons d _ ih => rw [List.count_cons, List.count_cons, ih]
  | literal _ ih =>
    rw [List.count_cons, List.count_cons, List.count_append, List.count_append,
      List.count_eq_zero.2 hu, List.count_eq_zero.2 hw, List.count_cons, List.count_cons, ih]

/-- A character that neither content holds stands in both texts or in none, and what follows it
agrees but for some literals. -/
theorem mem_iff {c : Char} (hc : c ≠ '"') (hu : c ∉ u) (hw : c ∉ w) (h : Exchanged u w t t') :
    c ∈ t ↔ c ∈ t' := by
  induction h with
  | nil => exact Iff.rfl
  | cons d _ ih => rw [List.mem_cons, List.mem_cons, ih]
  | literal _ ih => simp only [List.mem_cons, List.mem_append, hc, hu, hw, ih, false_or]

theorem after {c : Char} (hc : c ≠ '"') (hu : c ∉ u) (hw : c ∉ w) (h : Exchanged u w t t') :
    Exchanged u w (after c t) (after c t') := by
  induction h with
  | nil => exact .nil
  | @cons d t t' ht ih =>
    by_cases hd : d = c
    · rw [hd, after_cons_self, after_cons_self]
      exact ht
    · rw [after_cons_of_ne hd, after_cons_of_ne hd]
      exact ih
  | @literal t t' _ ih =>
    have hskip : ∀ {v : Text}, c ∉ v → ∀ x : Text,
        Text.after c ('"' :: (v ++ '"' :: x)) = Text.after c x := by
      intro v hv x
      rw [after_cons_of_ne hc.symm, after_append_of_not_mem hv, after_cons_of_ne hc.symm]
    rw [hskip hu, hskip hw]
    exact ih

end Exchanged

/-! ## Lines -/

end Literal

namespace Text

/-- Put a text in front of the first of some lines. -/
def putFirst (x : Text) : List Text → List Text
  | [] => [x]
  | l :: ls => (x ++ l) :: ls

/-- A text without a boundary belongs to the first line. -/
theorem lineTexts_append_of_unbroken {x : Text} (hx : Unbroken x) (hne : x ≠ []) (t : Text) :
    lineTexts (x ++ t) = putFirst x (lineTexts t) := by
  have hcons : ∀ {c : Char}, isLineBreak c = false → ∀ v,
      lineTexts (c :: v) = putFirst [c] (lineTexts v) := by
    intro c hc v
    unfold lineTexts
    rw [lines_cons_of_not_break hc]
    cases lines v <;> rfl
  induction x with
  | nil => exact absurd rfl hne
  | cons c x ih =>
    rw [List.cons_append, hcons (hx c List.mem_cons_self)]
    by_cases hnil : x = []
    · rw [hnil]
      rfl
    · rw [ih hx.tail hnil]
      cases lineTexts t <;> rfl

/-- A boundary ends a line, but for a return that is the first half of a pair. -/
theorem lineTexts_cons_of_break {c : Char} (hc : isLineBreak c = true) (t : Text) :
    lineTexts (c :: t)
      = if c = '\r' ∧ t.head? = some '\n' then lineTexts t else [] :: lineTexts t := by
  have hsingle : ∀ {c : Char}, isLineBreak c = true → ∀ {v : Text},
      ([c] = ['\r'] → v.head? ≠ some '\n') → lineTexts (c :: v) = [] :: lineTexts v := by
    intro c hc v hv
    unfold lineTexts
    rw [← List.singleton_append, lines_ending (.single hc) hv]
    rfl
  by_cases hpair : c = '\r' ∧ t.head? = some '\n'
  · obtain ⟨rfl, hhead⟩ := hpair
    obtain ⟨v, rfl⟩ := List.head?_eq_some_iff.1 hhead
    have hfeed : ['\n'] ≠ ['\r'] := by decide
    rw [if_pos ⟨rfl, hhead⟩, hsingle isLineBreak_feed fun h => absurd h hfeed]
    rfl
  · rw [if_neg hpair]
    exact hsingle hc fun he hhead => hpair ⟨(List.cons.inj he).1, hhead⟩

end Text

namespace Literal

variable {u w t t' : Text}

/-- A literal with its quotes. -/
def quoted (w : Text) : Text := '"' :: (w ++ ['"'])

theorem quoted_append (w t : Text) : quoted w ++ t = '"' :: (w ++ '"' :: t) := by
  unfold quoted
  rw [List.cons_append, List.append_assoc, List.singleton_append]

theorem IsContent.unbroken_quoted (hw : IsContent w) : Unbroken (quoted w) := by
  intro c hc
  rcases List.mem_cons.1 hc with rfl | hc
  · decide
  · rcases List.mem_append.1 hc with hc | hc
    · exact hw.unbroken c hc
    · rw [List.mem_singleton.1 hc]
      decide

namespace Exchanged

theorem quoted (u w : Text) : Exchanged u w (quoted u) (quoted w) := .literal .nil

theorem putFirst {x x' : Text} {ls ls' : List Text} (hx : Exchanged u w x x')
    (h : ExchangedLines u w ls ls') : ExchangedLines u w (putFirst x ls) (putFirst x' ls') := by
  cases h with
  | nil => exact .cons hx .nil
  | cons hl hls => exact .cons (hx.append hl) hls

/-- **Texts in which literals are exchanged are cut into such lines.** -/
theorem lineTexts (hu : IsContent u) (hw : IsContent w) (h : Exchanged u w t t') :
    ExchangedLines u w (lineTexts t) (lineTexts t') := by
  induction h with
  | nil => exact .nil
  | @cons c t t' ht ih =>
    by_cases hc : isLineBreak c = true
    · rw [lineTexts_cons_of_break hc, lineTexts_cons_of_break hc, ht.head?_eq]
      split
      · exact ih
      · exact .cons .nil ih
    · have hc : Unbroken [c] := List.forall_mem_singleton.2 (Bool.eq_false_iff.2 hc)
      have hne : [c] ≠ [] := List.cons_ne_nil c []
      have hcons := fun v => lineTexts_append_of_unbroken hc hne v
      have hput := (Exchanged.refl u w [c]).putFirst ih
      rw [← hcons, ← hcons] at hput
      exact hput
  | @literal t t' _ ih =>
    rw [← quoted_append, ← quoted_append,
      lineTexts_append_of_unbroken hu.unbroken_quoted (List.cons_ne_nil _ _),
      lineTexts_append_of_unbroken hw.unbroken_quoted (List.cons_ne_nil _ _)]
    exact (Exchanged.quoted u w).putFirst ih

end Exchanged

/-! ## Comments -/

end Literal

namespace Comment

/-- A text without a number sign is not cut, and behind it the cut goes on in the state it
leaves. -/
theorem cutFrom_append_of_no_sign {x : Text} (hx : '#' ∉ x) (q : Quotation) (t : Text) :
    cutFrom q (x ++ t) = x ++ cutFrom (q.past x) t := by
  induction x generalizing q with
  | nil => rfl
  | cons c x ih =>
    have hc : c ≠ '#' := fun e => hx (e ▸ List.mem_cons_self)
    rw [List.cons_append, cutFrom, if_neg fun hq => hc hq.2,
      ih fun hm => hx (List.mem_cons_of_mem c hm)]
    rfl

/-- Outside an escape a content changes nothing: it can neither end a literal nor begin one. -/
theorem Quotation.past_content {w : Text} (hw : Literal.IsContent w) {q : Quotation}
    (hq : q ≠ .escaped) : q.past w = q := by
  have hnext : ∀ c ∈ w, q.next c = q := by
    intro c hc
    have hquote : c ≠ '"' := fun e => hw.quote (e ▸ hc)
    have hslash : c ≠ '\\' := fun e => hw.backslash (e ▸ hc)
    cases q with
    | unquoted => exact if_neg hquote
    | quoted => rw [next, if_neg hslash, if_neg hquote]
    | escaped => exact absurd rfl hq
  unfold past
  clear hw hq
  induction w with
  | nil => rfl
  | cons c w ih =>
    rw [List.foldl_cons, hnext c List.mem_cons_self]
    exact ih fun d hd => hnext d (List.mem_cons_of_mem c hd)

/-- The state behind a literal does not depend on its content. -/
theorem Quotation.past_quoted {w : Text} (hw : Literal.IsContent w) (q : Quotation) :
    q.past (Literal.quoted w) = (q.next '"').next '"' := by
  have hq : q.next '"' ≠ .escaped := by
    cases q <;> decide
  have hcons : q.past (Literal.quoted w) = (q.next '"').past (w ++ ['"']) := rfl
  rw [hcons, past_append, past_content hw hq]
  rfl

/-- The delimiters in front of a content and behind it have no quote in common. -/
theorem delimiterCount_append_content {w : Text} (hq : '"' ∉ w) (hne : w ≠ []) (t u : Text) :
    delimiterCount (t ++ (w ++ u)) = delimiterCount t + delimiterCount u := by
  induction w generalizing t with
  | nil => exact absurd rfl hne
  | cons c w ih =>
    have hc : c ≠ '"' := fun e => hq (e ▸ List.mem_cons_self)
    rw [List.cons_append, delimiterCount_append_cons hc]
    by_cases hw : w = []
    · rw [hw, List.nil_append]
    · have := ih (fun hm => hq (List.mem_cons_of_mem c hm)) hw []
      rw [List.nil_append] at this
      rw [this]
      exact congrArg (delimiterCount t + ·) (Nat.zero_add _)

end Comment

namespace Literal

open Comment

theorem Harmless.sign_quoted (hw : Harmless w) : '#' ∉ quoted w := by
  intro hm
  rcases List.mem_cons.1 hm with hm | hm
  · revert hm
    decide
  · rcases List.mem_append.1 hm with hm | hm
    · exact hw.sign hm
    · revert hm
      decide

namespace Exchanged

theorem cutFrom (hu : Harmless u) (hw : Harmless w) (q : Quotation) (h : Exchanged u w t t') :
    Exchanged u w (cutFrom q t) (cutFrom q t') := by
  induction h generalizing q with
  | nil => exact .nil
  | cons c _ ih =>
    rw [Comment.cutFrom, Comment.cutFrom]
    split
    · exact .nil
    · exact .cons c (ih (q.next c))
  | literal _ ih =>
    rw [← quoted_append, ← quoted_append, cutFrom_append_of_no_sign hu.sign_quoted,
      cutFrom_append_of_no_sign hw.sign_quoted, Quotation.past_quoted hu.toIsContent,
      Quotation.past_quoted hw.toIsContent]
    exact (Exchanged.quoted u w).append (ih _)

theorem clean (hu : Harmless u) (hw : Harmless w) (h : Exchanged u w t t') :
    Exchanged u w (LogicalLine.clean t) (LogicalLine.clean t') :=
  (h.cutFrom hu hw .unquoted).trim

theorem delimiterCount_eq (hu : Harmless u) (hw : Harmless w) (h : Exchanged u w t t') :
    delimiterCount t = delimiterCount t' := by
  -- quotes in front of the texts may be part of their first delimiters
  have hall : ∀ k, delimiterCount (List.replicate k '"' ++ t)
      = delimiterCount (List.replicate k '"' ++ t') := by
    induction h with
    | nil => exact fun k => rfl
    | @cons c t t' _ ih =>
      intro k
      by_cases hc : c = '"'
      · have hmove : ∀ v : Text,
            List.replicate k '"' ++ '"' :: v = List.replicate (k + 1) '"' ++ v := by
          intro v
          rw [List.replicate_succ', List.append_assoc, List.singleton_append]
        rw [hc, hmove, hmove]
        exact ih (k + 1)
      · rw [delimiterCount_append_cons hc, delimiterCount_append_cons hc]
        exact congrArg _ (ih 0)
    | @literal t t' _ ih =>
      intro k
      have hsplit : ∀ {v : Text}, Harmless v → ∀ x : Text,
          delimiterCount (List.replicate k '"' ++ '"' :: (v ++ '"' :: x))
            = delimiterCount (List.replicate k '"' ++ ['"']) + delimiterCount ('"' :: x) := by
        intro v hv x
        rw [List.append_cons, delimiterCount_append_content hv.quote hv.ne_nil]
      rw [hsplit hu, hsplit hw]
      exact congrArg _ (ih 1)
  exact hall 0

/-- A line is judged alike whatever its literals say. -/
theorem judge_eq (hu : Harmless u) (hw : Harmless w) (h : Exchanged u w t t') (inComment : Bool) :
    judge inComment t = judge inComment t' := by
  unfold judge classify isLineComment
  rw [h.trim.head?_eq, h.trim.delimiterCount_eq hu hw]

/-- **The live lines of such texts are such lines.** -/
theorem liveTexts (hu : Harmless u) (hw : Harmless w) {ls ls' : List Text}
    (h : ExchangedLines u w ls ls') (inComment : Bool) :
    ExchangedLines u w (liveTexts inComment ls) (liveTexts inComment ls') := by
  induction h generalizing inComment with
  | nil => exact .nil
  | cons hl _ ih =>
    rw [Comment.liveTexts, Comment.liveTexts, hl.judge_eq hu hw]
    split
    · exact .cons hl.trim (ih _)
    · exact ih _

end Exchanged

/-! ## Headers -/

/-- Readings that are related found nothing both, or found related things. -/
theorem cases_of_rel {α β : Type} {r : α → β → Prop} {a : Option α} {b : Option β}
    (h : Option.Rel r a b) :
    (a = none ∧ b = none) ∨ ∃ x y, a = some x ∧ b = some y ∧ r x y := by
  cases h with
  | none => exact .inl ⟨rfl, rfl⟩
  | some hxy => exact .inr ⟨_, _, rfl, rfl, hxy⟩

/-- A literal without a header is passed over. -/
theorem locate?_quoted_append (hw : Header.locate? w = none) (t : Text) :
    Header.locate? (quoted w ++ t) = Header.locate? t := by
  have hquote : isNameChar '"' = false := by decide
  rw [quoted_append, Header.locate?_cons_of_stops hquote,
    Header.locate?_append (.cons (by decide) hquote t), hw]
  exact Header.locate?_cons_of_stops hquote t

namespace Exchanged

theorem name? (h : Exchanged u w t t') : ExchangedBehind u w (name? t) (name? t') := by
  have hquote : isNameChar '"' = false := by decide
  unfold Text.name?
  rw [h.takeWhile_eq hquote]
  split
  · exact .none
  · exact .some ⟨rfl, h.dropWhile hquote⟩

theorem isPrefixOf? {word : Text} (hword : '"' ∉ word) (h : Exchanged u w t t') :
    Option.Rel (Exchanged u w) (word.isPrefixOf? t) (word.isPrefixOf? t') := by
  induction word generalizing t t' with
  | nil => exact .some h
  | cons k word ih =>
    have hk : (k == '"') = false := beq_eq_false_iff_ne.2 fun e => hword (e ▸ List.mem_cons_self)
    cases h with
    | nil => exact .none
    | cons c ht =>
      rw [List.isPrefixOf?, List.isPrefixOf?]
      split
      · exact ih (fun hm => hword (List.mem_cons_of_mem k hm)) ht
      · exact .none
    | literal ht =>
      rw [List.isPrefixOf?, List.isPrefixOf?, hk]
      exact .none

theorem ofFront? (h : Exchanged u w t t') :
    ExchangedBehind u w (OperationKind.ofFront? t) (OperationKind.ofFront? t') := by
  unfold OperationKind.ofFront?
  generalize OperationKind.all = kinds
  induction kinds with
  | nil => exact .none
  | cons kind kinds ih =>
    have hword : '"' ∉ kind.keyword := by
      cases kind <;> decide
    rw [List.findSome?_cons, List.findSome?_cons]
    rcases cases_of_rel (h.isPrefixOf? hword) with ⟨hn, hn'⟩ | ⟨rest, rest', hs, hs', hrest⟩
    · rw [hn, hn']
      exact ih
    · rw [hs, hs']
      exact .some ⟨rfl, hrest⟩

theorem front? (h : Exchanged u w t t') :
    ExchangedBehind u w (Header.front? t) (Header.front? t') := by
  unfold Header.front?
  rcases cases_of_rel h.ofFront? with ⟨hn, hn'⟩ | ⟨⟨kind, more⟩, ⟨_, more'⟩, hs, hs', rfl, hmore⟩
  · rw [hn, hn']
    exact .none
  · rw [hs, hs']
    simp only [Option.bind_eq_bind, Option.bind_some]
    rw [hmore.head?_eq]
    split
    · rcases cases_of_rel hmore.trimStart.name? with
        ⟨hn, hn'⟩ | ⟨⟨name, rest⟩, ⟨_, rest'⟩, hs, hs', rfl, hrest⟩
      · rw [hn, hn']
        exact .none
      · rw [hs, hs']
        exact .some ⟨rfl, hrest⟩
    · exact .none

/-- **Lines in which harmless contents are exchanged have the same header.** -/
theorem locate? (hu : Harmless u) (hw : Harmless w) (h : Exchanged u w t t') :
    ExchangedBehind u w (Header.locate? t) (Header.locate? t') := by
  induction h with
  | nil => exact .none
  | @cons c t t' ht ih =>
    rw [Header.locate?, Header.locate?]
    rcases cases_of_rel (Exchanged.cons c ht).front? with
      ⟨hn, hn'⟩ | ⟨found, found', hs, hs', hfound⟩
    · rw [hn, hn']
      exact ih
    · rw [hs, hs']
      exact .some hfound
  | @literal t t' _ ih =>
    rw [← quoted_append, ← quoted_append, locate?_quoted_append hu.header,
      locate?_quoted_append hw.header]
    exact ih

theorem find?_eq (hu : Harmless u) (hw : Harmless w) (h : Exchanged u w t t') :
    Header.find? t = Header.find? t' := by
  unfold Header.find?
  rcases cases_of_rel (h.locate? hu hw) with ⟨hn, hn'⟩ | ⟨found, found', hs, hs', hfound, -⟩
  · rw [hn, hn']
  · rw [hs, hs', Option.map_some, Option.map_some, hfound]

theorem headerAfter (hu : Harmless u) (hw : Harmless w) (h : Exchanged u w t t') :
    Exchanged u w (Header.after t) (Header.after t') := by
  unfold Header.after
  rcases cases_of_rel (h.locate? hu hw) with ⟨hn, hn'⟩ | ⟨found, found', hs, hs', -, hfound⟩
  · rw [hn, hn']
    exact h
  · rw [hs, hs']
    exact hfound

/-- The scope of an operation takes the same of the lines. -/
theorem governed (hu : Harmless u) (hw : Harmless w) {ls ls' : List Text}
    (h : ExchangedLines u w ls ls') (target : Text) (inside : Bool) :
    ExchangedLines u w (Scope.governed target inside ls) (Scope.governed target inside ls') := by
  induction h generalizing inside with
  | nil => exact .nil
  | @cons l l' ls ls' hl _ ih =>
    have hopens : Scope.opens target inside l = Scope.opens target inside l' := by
      unfold Scope.opens
      rw [hl.find?_eq hu hw]
    rw [Scope.governed_cons, Scope.governed_cons, hopens]
    split
    · exact .cons hl (ih true)
    · exact ih false

end Exchanged

/-! ## Blocks -/

/-- Two runs of a block that end alike. -/
inductive ExchangedRuns (u w : Text) : Block.Run → Block.Run → Prop where
  | closes {before before' : Text} : Exchanged u w before before' →
      ExchangedRuns u w (.closes before) (.closes before')
  | stays (inner : Nat) : ExchangedRuns u w (.stays inner) (.stays inner)

/-- Two blocks that end alike and have bodies that agree but for some literals. -/
structure ExchangedBlocks (u w : Text) (b b' : Block) : Prop where
  body : ExchangedLines u w b.body b'.body
  consumed : b.consumed = b'.consumed

theorem ExchangedRuns.behind {r r' : Block.Run} (ht : Exchanged u w t t')
    (h : ExchangedRuns u w r r') : ExchangedRuns u w (r.behind t) (r'.behind t') := by
  cases h with
  | closes hb => exact .closes (ht.append hb)
  | stays inner => exact .stays inner

theorem Harmless.run_quoted_append (hw : Harmless w) (k : Nat) (x : Text) :
    Block.run k (quoted w ++ x) = (Block.run k x).behind (quoted w) := by
  have hno : ∀ {c : Char}, c ≠ '"' → c ∉ w → c ∉ quoted w := by
    intro c hc hcw hm
    rcases List.mem_cons.1 hm with hm | hm
    · exact hc hm
    · rcases List.mem_append.1 hm with hm | hm
      · exact hcw hm
      · exact hc (List.mem_singleton.1 hm)
  exact Block.run_append_of_stays
    (Block.run_of_no_braces (hno (by decide) hw.opening) (hno (by decide) hw.closing) k) x

namespace Exchanged

theorem run (hu : Harmless u) (hw : Harmless w) (h : Exchanged u w t t') (k : Nat) :
    ExchangedRuns u w (Block.run k t) (Block.run k t') := by
  induction h generalizing k with
  | nil => exact .stays k
  | @cons c t t' _ ih =>
    have hcons : ∀ j, ExchangedRuns u w ((Block.run j t).cons c) ((Block.run j t').cons c) := by
      intro j
      have hrel := ih j
      generalize Block.run j t = r at hrel
      generalize Block.run j t' = r' at hrel
      cases hrel with
      | closes hb => exact .closes (.cons c hb)
      | stays inner => exact .stays inner
    rw [Block.run_cons, Block.run_cons]
    split
    · exact hcons (k + 1)
    · split
      · cases k with
        | zero => exact .closes .nil
        | succ k => exact hcons k
      · exact hcons k
  | literal _ ih =>
    rw [← quoted_append, ← quoted_append, hu.run_quoted_append, hw.run_quoted_append]
    exact (ih k).behind (Exchanged.quoted u w)

/-- **Blocks of such lines end on the same line.** -/
theorem takeFrom (hu : Harmless u) (hw : Harmless w) {ls ls' : List Text}
    (hls : ExchangedLines u w ls ls') (h : Exchanged u w t t') (k : Nat) :
    ExchangedBlocks u w (Block.takeFrom k t ls) (Block.takeFrom k t' ls') := by
  have hrun := h.run hu hw k
  induction hls generalizing t t' k with
  | nil =>
    rw [Block.takeFrom.eq_def, Block.takeFrom.eq_def]
    generalize Block.run k t = r at hrun
    generalize Block.run k t' = r' at hrun
    cases hrun with
    | closes hb => exact ⟨.cons hb .nil, rfl⟩
    | stays inner => exact ⟨.cons h .nil, rfl⟩
  | @cons l l' ls ls' hl _ ih =>
    rw [Block.takeFrom.eq_def, Block.takeFrom.eq_def]
    generalize Block.run k t = r at hrun
    generalize Block.run k t' = r' at hrun
    cases hrun with
    | closes hb => exact ⟨.cons hb .nil, rfl⟩
    | stays inner =>
      obtain ⟨hbody, hconsumed⟩ := ih hl inner (hl.run hu hw inner)
      exact ⟨.cons h hbody, congrArg (· + 1) hconsumed⟩

end Exchanged

end Literal

end GqlScan
