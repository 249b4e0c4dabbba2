import Mathlib.Data.List.Forall2
import GqlScan.Proofs.LiveText
import GqlScan.Proofs.Literals.Exchange
import GqlScan.Proofs.Registration
import GqlScan.Proofs.SelectionLines

/-!
# Selections in which contents are exchanged

Behind the name in a line of a selection set the arguments end at the first closing parenthesis. A
content may hold one when it opens further arguments behind it: then the scan is among arguments
again where the literal ends, and goes on as it does behind any other content.

Main statement: `Exchanged.sameFields`, that documents in which harmless contents are exchanged have
the same fields.
-/

namespace GqlScan

open Text

/-! ## Arguments and directives -/

namespace LineShape

theorem skipDirectives_of_name {t s name more : Text} (ht : trimStart t = '@' :: s)
    (hn : name? s = some (name, more)) :
    skipDirectives t = skipDirectives (skipArguments (trimStart more)) := by
  rw [skipDirectives]
  split
  · rename_i rest h
    rw [ht] at h
    cases h
    split
    · rename_i h
      rw [hn] at h
      cases h
      rfl
    · rename_i h
      rw [hn] at h
      cases h
  · rename_i h
    exact absurd ht (h s)

theorem skipDirectives_of_no_name {t s : Text} (ht : trimStart t = '@' :: s)
    (hn : name? s = none) : skipDirectives t = '@' :: s := by
  rw [skipDirectives]
  split
  · rename_i rest h
    rw [ht] at h
    cases h
    split
    · rename_i h
      rw [hn] at h
      cases h
    · rfl
  · rename_i h
    exact absurd ht (h s)

variable {line name more : Text}

theorem opening?_of_alias {rest : Text} (hn : name? line = some (name, more))
    (hcolon : trimStart more = ':' :: rest) :
    opening? line
      = (name? (trimStart rest)).bind fun found =>
          openingTail? (some name) found.1 found.2 := by
  unfold opening?
  rw [hn]
  simp only [Option.bind_eq_bind, Option.bind_some, hcolon]

theorem openingTail?_of_head {aliasName? : Option Text} {field : Text}
    (h : (skipTail more).head? ≠ some '{') : openingTail? aliasName? field more = none := by
  unfold openingTail?
  split
  · rename_i rest hrest
    rw [hrest] at h
    exact absurd rfl h
  · rfl

theorem simple?_of_colon {rest : Text} (hn : name? line = some (name, more))
    (ht : skipTail more = ':' :: rest) :
    simple? line
      = if (trimStart rest).takeWhile isTypeChar ≠ []
            ∧ isLineEnd ((trimStart rest).dropWhile isTypeChar) = true then
          some (name, some ((trimStart rest).takeWhile isTypeChar))
        else none := by
  unfold simple?
  rw [hn]
  simp only [Option.bind_eq_bind, Option.bind_some, ht]
  rfl

theorem simple?_of_no_colon (hn : name? line = some (name, more))
    (ht : (skipTail more).head? ≠ some ':') :
    simple? line = if isLineEnd (skipTail more) = true then some (name, none) else none := by
  unfold simple?
  rw [hn]
  simp only [Option.bind_eq_bind, Option.bind_some]
  split
  · rename_i rest hrest
    rw [hrest] at ht
    exact absurd rfl ht
  · rfl

theorem aliased?_of_alias {rest : Text} (hn : name? line = some (name, more))
    (hcolon : trimStart more = ':' :: rest) :
    aliased? line
      = (name? (trimStart rest)).bind fun found =>
          if isLineEnd (skipTail found.2) = true then some name else none := by
  unfold aliased?
  rw [hn]
  simp only [Option.bind_eq_bind, Option.bind_some, hcolon]
  rfl

/-- Where arguments are never closed, nothing behind them is read. -/
def Stuck (t : Text) : Prop := t.head? = some '('

theorem stuck_skipDirectives {t : Text} (h : Stuck t) : Stuck (skipDirectives t) := by
  obtain ⟨s, rfl⟩ := List.head?_eq_some_iff.1 h
  have htrim : trimStart ('(' :: s) = '(' :: s := rfl
  have hhead : (trimStart ('(' :: s)).head? ≠ some '@' := by
    rw [htrim, List.head?_cons]
    decide
  rw [skipDirectives_of_head hhead, htrim]
  rfl

end LineShape

namespace Literal

open LineShape

variable {u w t t' : Text}

/-- What is behind a quote and the arguments it stands in: it is read from the closing parenthesis
on, and without one nothing is. -/
structure ReadsPast (r t : Text) : Prop where
  closed : ')' ∈ t → skipDirectives r = skipDirectives (after ')' t)
  stuck : ')' ∉ t → Stuck (skipDirectives r)

theorem ReadsPast.of_eq {r r' t : Text} (hr : skipDirectives r = skipDirectives r')
    (h : ReadsPast r' t) : ReadsPast r t :=
  ⟨fun ht => hr.trans (h.closed ht), fun ht => hr ▸ h.stuck ht⟩

/-- Arguments that are open at the end of a text go on in whatever follows the quote. -/
theorem readsPast_of_open {m : Text} (hm : ')' ∉ m) {r : Text} (t : Text)
    (hr : skipDirectives r = skipDirectives (skipArguments ('(' :: (m ++ '"' :: t)))) :
    ReadsPast r t := by
  have hmem : ')' ∈ m ++ '"' :: t ↔ ')' ∈ t := by
    rw [List.mem_append, List.mem_cons]
    simp [hm]
  constructor
  · intro ht
    rw [hr, skipArguments, if_pos (hmem.2 ht), after_append_of_not_mem hm,
      after_cons_of_ne (by decide)]
  · intro ht
    rw [hr, skipArguments, if_neg fun h => ht (hmem.1 h)]
    exact stuck_skipDirectives rfl

/-- In front of a quote, arguments are open at the end of a text, or what is left behind them does
not depend on what follows the quote. -/
theorem arguments_before_quote (t : Text) :
    (∃ m, ')' ∉ m ∧ ∀ v, trimStart (t ++ '"' :: v) = '(' :: (m ++ '"' :: v))
      ∨ ∀ v, skipArguments (trimStart (t ++ '"' :: v))
          = skipArguments (trimStart t) ++ '"' :: v := by
  have htrim : ∀ v, trimStart (t ++ '"' :: v) = trimStart t ++ '"' :: v :=
    fun v => dropWhile_append_of_stops (.cons (by decide) v) t
  simp only [htrim]
  by_cases hhead : (trimStart t).head? = some '('
  · obtain ⟨m, hm⟩ := List.head?_eq_some_iff.1 hhead
    rw [hm]
    by_cases hclose : ')' ∈ m
    · refine .inr fun v => ?_
      rw [List.cons_append, skipArguments, skipArguments, if_pos hclose,
        if_pos (List.mem_append_left _ hclose), after_append_of_mem hclose]
    · exact .inl ⟨m, hclose, fun v => rfl⟩
  · refine .inr fun v => ?_
    have happ : (trimStart t ++ '"' :: v).head? ≠ some '(' := by
      rw [List.head?_append]
      cases hc : (trimStart t).head? with
      | none => exact fun he => absurd he (by simp)
      | some c => exact fun he => hhead (hc.trans he)
    rw [skipArguments_of_head hhead, skipArguments_of_head happ]

/-- If a quote and a closing parenthesis behind a text end all its arguments and directives, then
arguments are open at the end of the text, and they go on in whatever follows the quote. -/
theorem readsPast_of_reopens {r : Text} (h : skipDirectives (r ++ ['"', ')']) = []) (t : Text) :
    ReadsPast (r ++ '"' :: t) t := by
  have hstops : ∀ v, Stops isNameChar ('"' :: v) := fun v => .cons (by decide) v
  have htrim : ∀ r v, trimStart (r ++ '"' :: v) = trimStart r ++ '"' :: v :=
    fun r v => dropWhile_append_of_stops (.cons (by decide) v) r
  fun_induction skipDirectives r with
  | case1 r rest hr name more hn _ ih =>
    have hskip : ∀ v, skipDirectives (r ++ '"' :: v)
        = skipDirectives (skipArguments (trimStart (more ++ '"' :: v))) := by
      intro v
      have hname : name? (rest ++ '"' :: v) = some (name, more ++ '"' :: v) := by
        rw [name?_append (hstops v), hn, Option.map_some]
      refine skipDirectives_of_name ?_ hname
      rw [htrim, hr, List.cons_append]
    rcases arguments_before_quote more with ⟨m, hm, hopen⟩ | hclosed
    · exact readsPast_of_open hm t ((hskip t).trans (by rw [hopen]))
    · -- these arguments are closed within the text, and the rest of it is shorter
      rw [hskip, hclosed] at h
      exact .of_eq ((hskip t).trans (congrArg skipDirectives (hclosed t))) (ih h)
  | case2 r rest hr hn =>
    have hname : name? (rest ++ ['"', ')']) = none := by
      rw [name?_append (hstops _), hn, Option.map_none]
    rw [skipDirectives_of_no_name (s := rest ++ ['"', ')']) (by rw [htrim, hr]; rfl) hname] at h
    cases h
  | case3 r hother =>
    have hhead : (trimStart r ++ ['"', ')']).head? ≠ some '@' := by
      cases hr : trimStart r with
      | nil =>
        rw [List.nil_append, List.head?_cons]
        decide
      | cons c s =>
        rw [List.cons_append, List.head?_cons]
        intro he
        exact hother s (hr.trans (congrArg (· :: s) (Option.some.inj he)))
    rw [skipDirectives_of_head (by rwa [htrim]), htrim] at h
    exact absurd h (List.append_ne_nil_of_right_ne_nil _ (List.cons_ne_nil _ _))

/-! ## Arguments that hold literals -/

/-- Past the opening parenthesis of arguments, the text `t` is read as `x` is: from behind the first
closing parenthesis on, or further on when directives follow it. -/
def Ends (t x : Text) : Prop := ')' ∈ t ∧ skipDirectives (after ')' t) = skipDirectives x

/-- Past the opening parenthesis of arguments, nothing is read behind the text `t`. -/
def Sticks (t : Text) : Prop := ')' ∈ t → Stuck (skipDirectives (after ')' t))

theorem ends_cons_iff {c : Char} (hc : c ≠ ')') {t x : Text} : Ends (c :: t) x ↔ Ends t x := by
  unfold Ends
  rw [List.mem_cons, after_cons_of_ne hc]
  simp only [hc.symm, false_or]

theorem sticks_cons_iff {c : Char} (hc : c ≠ ')') {t : Text} : Sticks (c :: t) ↔ Sticks t := by
  unfold Sticks
  rw [List.mem_cons, after_cons_of_ne hc]
  simp only [hc.symm, false_or]

/-- A harmless literal in arguments is passed over, whether or not it holds parentheses. -/
theorem Harmless.ends_literal (hw : Harmless w) {t x : Text} (h : Ends t x) :
    Ends ('"' :: (w ++ '"' :: t)) x := by
  obtain ⟨hmem, hread⟩ := h
  rw [ends_cons_iff (by decide)]
  refine ⟨List.mem_append_right w (List.mem_cons_of_mem _ hmem), ?_⟩
  by_cases hclose : ')' ∈ w
  · rw [after_append_of_mem hclose, (readsPast_of_reopens (hw.reopens hclose) t).closed hmem, hread]
  · rw [after_append_of_not_mem hclose, after_cons_of_ne (by decide), hread]

theorem Harmless.sticks_literal (hw : Harmless w) {t : Text} (h : Sticks t) :
    Sticks ('"' :: (w ++ '"' :: t)) := by
  rw [sticks_cons_iff (by decide)]
  intro hmem
  by_cases hclose : ')' ∈ w
  · rw [after_append_of_mem hclose]
    have hpast := readsPast_of_reopens (hw.reopens hclose) t
    by_cases ht : ')' ∈ t
    · rw [hpast.closed ht]
      exact h ht
    · exact hpast.stuck ht
  · have ht : ')' ∈ t := by
      rcases List.mem_append.1 hmem with hm | hm
      · exact absurd hm hclose
      · exact List.mem_of_ne_of_mem (by decide) hm
    rw [after_append_of_not_mem hclose, after_cons_of_ne (by decide)]
    exact h ht

/-- Two texts that agree but for some literals, or in neither of which anything is read. -/
def ExchangedTails (u w : Text) (t t' : Text) : Prop :=
  Exchanged u w t t' ∨ Stuck t ∧ Stuck t'

namespace Exchanged

theorem arguments (hu : Harmless u) (hw : Harmless w) (h : Exchanged u w t t') :
    (∃ x x', Exchanged u w x x' ∧ x.length ≤ t.length ∧ Ends t x ∧ Ends t' x')
      ∨ Sticks t ∧ Sticks t' := by
  induction h with
  | nil =>
    have hnil : Sticks [] := fun hm => absurd hm List.not_mem_nil
    exact .inr ⟨hnil, hnil⟩
  | @cons c t t' ht ih =>
    by_cases hc : c = ')'
    · subst hc
      refine .inl ⟨t, t', ht, Nat.le_succ _, ⟨List.mem_cons_self, ?_⟩, ⟨List.mem_cons_self, ?_⟩⟩
      · rw [after_cons_self]
      · rw [after_cons_self]
    · rw [sticks_cons_iff hc, sticks_cons_iff hc]
      rcases ih with ⟨x, x', hx, hle, hends, hends'⟩ | hsticks
      · exact .inl ⟨x, x', hx, Nat.le_succ_of_le hle, (ends_cons_iff hc).2 hends,
          (ends_cons_iff hc).2 hends'⟩
      · exact .inr hsticks
  | @literal t t' ht ih =>
    rcases ih with ⟨x, x', hx, hle, hends, hends'⟩ | ⟨hsticks, hsticks'⟩
    · refine .inl ⟨x, x', hx, ?_, hu.ends_literal hends, hw.ends_literal hends'⟩
      rw [List.length_cons, List.length_append, List.length_cons]
      omega
    · exact .inr ⟨hu.sticks_literal hsticks, hw.sticks_literal hsticks'⟩

/-- Behind arguments with harmless literals the texts go on alike. -/
theorem skipArguments (hu : Harmless u) (hw : Harmless w) (h : Exchanged u w t t') :
    (∃ x x', Exchanged u w x x' ∧ x.length ≤ t.length
        ∧ skipDirectives (skipArguments t) = skipDirectives x
        ∧ skipDirectives (skipArguments t') = skipDirectives x')
      ∨ Stuck (skipDirectives (skipArguments t)) ∧ Stuck (skipDirectives (skipArguments t')) := by
  by_cases hhead : t.head? = some '('
  · have hhead' : t'.head? = some '(' := h.head?_eq ▸ hhead
    obtain ⟨s, rfl⟩ := List.head?_eq_some_iff.1 hhead
    obtain ⟨s', rfl⟩ := List.head?_eq_some_iff.1 hhead'
    have hs : Exchanged u w s s' := by
      cases h with
      | cons _ hs => exact hs
    have hends : ∀ {r x : Text}, Ends r x →
        skipDirectives (LineShape.skipArguments ('(' :: r)) = skipDirectives x := by
      intro r x hr
      rw [LineShape.skipArguments, if_pos hr.1, hr.2]
    have hsticks : ∀ {r : Text}, Sticks r →
        Stuck (skipDirectives (LineShape.skipArguments ('(' :: r))) := by
      intro r hr
      rw [LineShape.skipArguments]
      split
      · rename_i hmem
        exact hr hmem
      · exact stuck_skipDirectives rfl
    rcases hs.arguments hu hw with ⟨x, x', hx, hle, he, he'⟩ | ⟨hst, hst'⟩
    · exact .inl ⟨x, x', hx, Nat.le_succ_of_le hle, hends he, hends he'⟩
    · exact .inr ⟨hsticks hst, hsticks hst'⟩
  · refine .inl ⟨t, t', h, Nat.le_refl _, ?_, ?_⟩
    · rw [skipArguments_of_head hhead]
    · rw [skipArguments_of_head (h.head?_eq ▸ hhead)]

theorem skipDirectives (hu : Harmless u) (hw : Harmless w) (h : Exchanged u w t t') :
    ExchangedTails u w (skipDirectives t) (skipDirectives t') := by
  -- each directive takes a part of the text away
  induction hn : t.length using Nat.strongRecOn generalizing t t' with
  | ind n ih =>
    subst hn
    have hstart := h.trimStart
    have hle := length_trimStart_le t
    by_cases hhead : (Text.trimStart t).head? = some '@'
    · have hhead' : (Text.trimStart t').head? = some '@' := hstart.head?_eq ▸ hhead
      obtain ⟨s, hs⟩ := List.head?_eq_some_iff.1 hhead
      obtain ⟨s', hs'⟩ := List.head?_eq_some_iff.1 hhead'
      rw [hs, hs'] at hstart
      rw [hs, List.length_cons] at hle
      have hrest : Exchanged u w s s' := by
        cases hstart with
        | cons _ hrest => exact hrest
      rcases cases_of_rel hrest.name? with
        ⟨hn, hn'⟩ | ⟨⟨name, more⟩, ⟨_, more'⟩, hn, hn', rfl, hmore⟩
      · rw [skipDirectives_of_no_name hs hn, skipDirectives_of_no_name hs' hn']
        exact .inl hstart
      · have hshort := (name?_suffix hn).length_le
        have htrim := length_trimStart_le more
        rw [skipDirectives_of_name hs hn, skipDirectives_of_name hs' hn']
        rcases hmore.trimStart.skipArguments hu hw with ⟨x, x', hx, hlex, hr, hr'⟩ | hstuck
        · dsimp only at hlex
          rw [hr, hr']
          exact ih _ (by omega) hx rfl
        · exact .inr hstuck
    · rw [skipDirectives_of_head hhead, skipDirectives_of_head (hstart.head?_eq ▸ hhead)]
      exact .inl hstart

theorem skipTail (hu : Harmless u) (hw : Harmless w) (h : Exchanged u w t t') :
    ExchangedTails u w (skipTail t) (skipTail t') := by
  unfold LineShape.skipTail
  rcases h.trimStart.skipArguments hu hw with ⟨x, x', hx, -, hr, hr'⟩ | hstuck
  · rw [hr, hr']
    exact hx.skipDirectives hu hw
  · exact .inr hstuck

end Exchanged

/-! ## The shapes of a line -/

/-- Two opening lines with one name and texts behind the brace that agree but for some literals. -/
structure ExchangedOpenings (u w : Text) (o o' : Opening) : Prop where
  aliasName? : o.aliasName? = o'.aliasName?
  field : o.field = o'.field
  after : Exchanged u w o.after o'.after

theorem ExchangedTails.head?_eq (h : ExchangedTails u w t t') : t.head? = t'.head? := by
  rcases h with h | ⟨h, h'⟩
  · exact h.head?_eq
  · exact h.trans h'.symm

theorem ExchangedTails.of_head {c : Char} {s : Text} (h : ExchangedTails u w (c :: s) t')
    (hc : c ≠ '(') (hq : c ≠ '"') : ∃ s', t' = c :: s' ∧ Exchanged u w s s' := by
  rcases h with h | ⟨h, -⟩
  · cases h with
    | cons _ hs => exact ⟨_, rfl, hs⟩
    | literal _ => exact absurd rfl hq
  · exact absurd (Option.some.inj h) hc

theorem Exchanged.isLineEnd_eq (h : Exchanged u w t t') : isLineEnd t = isLineEnd t' := by
  have hquote : ∀ {v : Text}, '"' ∈ Text.trimStart v → isLineEnd v = false := by
    intro v hv
    have hnil : Text.trimStart v ≠ [] := List.ne_nil_of_mem hv
    have hcomma : Text.trimStart v ≠ [','] := by
      intro he
      rw [he] at hv
      revert hv
      decide
    unfold isLineEnd
    rw [beq_eq_false_iff_ne.2 hnil, beq_eq_false_iff_ne.2 hcomma]
    rfl
  rcases h.trimStart.eq_or_quote with he | ⟨hq, hq'⟩
  · unfold isLineEnd
    rw [he]
  · rw [hquote hq, hquote hq']

theorem ExchangedTails.isLineEnd_eq (h : ExchangedTails u w t t') :
    isLineEnd t = isLineEnd t' := by
  have hstuck : ∀ {v : Text}, Stuck v → isLineEnd v = false := by
    intro v hv
    obtain ⟨s, rfl⟩ := List.head?_eq_some_iff.1 hv
    rfl
  rcases h with h | ⟨h, h'⟩
  · exact h.isLineEnd_eq
  · rw [hstuck h, hstuck h']

theorem IsContent.no_feed (hw : IsContent w) : '\n' ∉ w := by
  intro hm
  have := hw.unbroken _ hm
  rw [isLineBreak_feed] at this
  cases this

namespace Exchanged

theorem openingTail? (hu : Harmless u) (hw : Harmless w) (h : Exchanged u w t t')
    (aliasName? : Option Text) (field : Text) :
    Option.Rel (ExchangedOpenings u w) (openingTail? aliasName? field t)
      (openingTail? aliasName? field t') := by
  have htail := h.skipTail hu hw
  by_cases hhead : (LineShape.skipTail t).head? = some '{'
  · obtain ⟨s, hs⟩ := List.head?_eq_some_iff.1 hhead
    rw [hs] at htail
    obtain ⟨s', hs', hrest⟩ := htail.of_head (by decide) (by decide)
    have hfeed : '\n' ∈ s ↔ '\n' ∈ s' := hrest.mem_iff (by decide) hu.no_feed hw.no_feed
    unfold LineShape.openingTail?
    rw [hs, hs']
    change Option.Rel _ (if '\n' ∈ s then none else some (Opening.mk aliasName? field s))
      (if '\n' ∈ s' then none else some (Opening.mk aliasName? field s'))
    by_cases hmem : '\n' ∈ s
    · rw [if_pos hmem, if_pos (hfeed.1 hmem)]
      exact .none
    · rw [if_neg hmem, if_neg fun hmem' => hmem (hfeed.2 hmem')]
      exact .some ⟨rfl, rfl, hrest⟩
  · rw [openingTail?_of_head hhead, openingTail?_of_head (htail.head?_eq ▸ hhead)]
    exact .none

/-- **Lines in which harmless contents are exchanged open the same selection.** -/
theorem opening? (hu : Harmless u) (hw : Harmless w) (h : Exchanged u w t t') :
    Option.Rel (ExchangedOpenings u w) (opening? t) (opening? t') := by
  rcases cases_of_rel h.name? with
    ⟨hn, hn'⟩ | ⟨⟨first, more⟩, ⟨_, more'⟩, hn, hn', rfl, hmore⟩
  · unfold LineShape.opening?
    rw [hn, hn']
    exact .none
  · have hstart := hmore.trimStart
    by_cases hhead : (Text.trimStart more).head? = some ':'
    · obtain ⟨s, hs⟩ := List.head?_eq_some_iff.1 hhead
      dsimp only at hstart
      rw [hs] at hstart
      obtain ⟨s', hs', hrest⟩ := ExchangedTails.of_head (.inl hstart) (by decide) (by decide)
      rw [opening?_of_alias hn hs, opening?_of_alias hn' hs']
      rcases cases_of_rel hrest.trimStart.name? with
        ⟨hf, hf'⟩ | ⟨⟨field, rest⟩, ⟨_, rest'⟩, hf, hf', rfl, hrest⟩
      · rw [hf, hf']
        exact .none
      · rw [hf, hf']
        exact hrest.openingTail? hu hw (some first) field
    · rw [opening?_of_no_alias hn hhead, opening?_of_no_alias hn' (hstart.head?_eq ▸ hhead)]
      exact hmore.openingTail? hu hw none first

theorem simple?_eq (hu : Harmless u) (hw : Harmless w) (h : Exchanged u w t t') :
    simple? t = simple? t' := by
  rcases cases_of_rel h.name? with
    ⟨hn, hn'⟩ | ⟨⟨name, more⟩, ⟨_, more'⟩, hn, hn', rfl, hmore⟩
  · unfold simple?
    rw [hn, hn']
  · have htail := hmore.skipTail hu hw
    dsimp only at htail
    by_cases hhead : (LineShape.skipTail more).head? = some ':'
    · have hquote : isTypeChar '"' = false := by decide
      obtain ⟨s, hs⟩ := List.head?_eq_some_iff.1 hhead
      rw [hs] at htail
      obtain ⟨s', hs', hrest⟩ := htail.of_head (by decide) (by decide)
      rw [simple?_of_colon hn hs, simple?_of_colon hn' hs', hrest.trimStart.takeWhile_eq hquote,
        (hrest.trimStart.dropWhile hquote).isLineEnd_eq]
    · rw [simple?_of_no_colon hn hhead, simple?_of_no_colon hn' (htail.head?_eq ▸ hhead),
        htail.isLineEnd_eq]

theorem aliased?_eq (hu : Harmless u) (hw : Harmless w) (h : Exchanged u w t t') :
    aliased? t = aliased? t' := by
  rcases cases_of_rel h.name? with
    ⟨hn, hn'⟩ | ⟨⟨name, more⟩, ⟨_, more'⟩, hn, hn', rfl, hmore⟩
  · unfold aliased?
    rw [hn, hn']
  · have hstart := hmore.trimStart
    by_cases hhead : (Text.trimStart more).head? = some ':'
    · obtain ⟨s, hs⟩ := List.head?_eq_some_iff.1 hhead
      dsimp only at hstart
      rw [hs] at hstart
      obtain ⟨s', hs', hrest⟩ := ExchangedTails.of_head (.inl hstart) (by decide) (by decide)
      rw [aliased?_of_alias hn hs, aliased?_of_alias hn' hs']
      rcases cases_of_rel hrest.trimStart.name? with
        ⟨hf, hf'⟩ | ⟨⟨field, rest⟩, ⟨_, rest'⟩, hf, hf', -, hrest⟩
      · rw [hf, hf']
      · rw [hf, hf', Option.bind_some, Option.bind_some, (hrest.skipTail hu hw).isLineEnd_eq]
    · rw [aliased?_of_no_alias hn hhead, aliased?_of_no_alias hn' (hstart.head?_eq ▸ hhead)]

/-- **Lines in which harmless contents are exchanged name the same field.** -/
theorem leaf?_eq (hu : Harmless u) (hw : Harmless w) (h : Exchanged u w t t') :
    Selection.leaf? t = Selection.leaf? t' := by
  unfold Selection.leaf?
  rw [h.simple?_eq hu hw, h.aliased?_eq hu hw]

end Exchanged

/-! ## Logical lines -/

/-- Groups of lines that agree but for some literals. -/
abbrev ExchangedGroups (u w : Text) : List (List Text) → List (List Text) → Prop :=
  List.Forall₂ (ExchangedLines u w)

theorem ExchangedLines.eq_nil_iff {ls ls' : List Text} (h : ExchangedLines u w ls ls') :
    ls = [] ↔ ls' = [] := by
  cases h with
  | nil => exact Iff.rfl
  | cons _ _ => exact iff_of_false (List.cons_ne_nil _ _) (List.cons_ne_nil _ _)

/-- Lines are grouped alike, for a harmless content opens as many parentheses as it closes. -/
theorem ExchangedLines.gather (hu : Harmless u) (hw : Harmless w) {ls ls' : List Text}
    (h : ExchangedLines u w ls ls') {pending pending' : List Text}
    (hpending : ExchangedLines u w pending pending') (depth : Nat) :
    ExchangedGroups u w (LogicalLine.gather pending depth ls)
      (LogicalLine.gather pending' depth ls') := by
  induction h generalizing pending pending' depth with
  | nil =>
    rw [LogicalLine.gather, LogicalLine.gather]
    by_cases hnil : pending = []
    · rw [if_pos hnil, if_pos (hpending.eq_nil_iff.1 hnil)]
      exact .nil
    · rw [if_neg hnil, if_neg fun hnil' => hnil (hpending.eq_nil_iff.2 hnil')]
      exact .cons hpending .nil
  | @cons l l' ls ls' hl _ ih =>
    have hcounts : u.count '(' + w.count ')' = w.count '(' + u.count ')' := by
      rw [hu.balanced, hw.balanced, Nat.add_comm]
    have hcount := hl.count_add_count hcounts
    have hgroup : ExchangedLines u w (pending ++ [l]) (pending' ++ [l']) :=
      List.rel_append hpending (.cons hl .nil)
    rw [LogicalLine.gather, LogicalLine.gather]
    by_cases hempty : l = [] ∧ pending = []
    · rw [if_pos hempty, if_pos ⟨hl.eq_nil_iff.1 hempty.1, hpending.eq_nil_iff.1 hempty.2⟩]
      exact ih .nil depth
    · have hempty' : ¬ (l' = [] ∧ pending' = []) :=
        fun he => hempty ⟨hl.eq_nil_iff.2 he.1, hpending.eq_nil_iff.2 he.2⟩
      rw [if_neg hempty, if_neg hempty']
      by_cases hclosed : depth + l.count '(' ≤ l.count ')'
      · have hclosed' : depth + l'.count '(' ≤ l'.count ')' := by omega
        rw [if_pos hclosed, if_pos hclosed']
        exact .cons hgroup (ih .nil 0)
      · have hclosed' : ¬ depth + l'.count '(' ≤ l'.count ')' := by omega
        have hdepth : depth + l.count '(' - l.count ')' = depth + l'.count '(' - l'.count ')' := by
          omega
        rw [if_neg hclosed, if_neg hclosed', hdepth]
        exact ih hgroup _

theorem ExchangedLines.joined {group group' : List Text} (h : ExchangedLines u w group group') :
    Exchanged u w (LogicalLine.joined group) (LogicalLine.joined group') := by
  unfold LogicalLine.joined
  induction h with
  | nil => exact .nil
  | @cons l l' ls ls' hl hls ih =>
    cases hls with
    | nil => exact hl
    | cons hm hms =>
      rw [join, join]
      exact (hl.append (.refl u w [' '])).append ih

/-- **The logical lines of such lines are such lines.** -/
theorem ExchangedLines.ofLines (hu : Harmless u) (hw : Harmless w) {ls ls' : List Text}
    (h : ExchangedLines u w ls ls') :
    ExchangedLines u w (LogicalLine.ofLines ls) (LogicalLine.ofLines ls') := by
  have hclean : ExchangedLines u w (ls.map LogicalLine.clean) (ls'.map LogicalLine.clean) :=
    List.rel_map (fun _ _ hl => Exchanged.clean hu hw hl) h
  exact List.rel_map (fun _ _ hg => ExchangedLines.joined hg) (hclean.gather hu hw .nil 0)

/-! ## Fields -/

theorem ExchangedOpenings.name_eq {o o' : Opening} (h : ExchangedOpenings u w o o') :
    o.name = o'.name := by
  unfold Opening.name
  rw [h.aliasName?, h.field]

section

open Selection

/-- Logical lines in which harmless contents are exchanged have the same fields, if the blocks
between them do. -/
theorem ExchangedLines.fieldsFrom_eq (hu : Harmless u) (hw : Harmless w) {bound : Nat}
    (hblocks : ∀ {owner : Text} {body body' : List Text}, ExchangedLines u w body body' →
      Block.braces body < bound → fields owner body = fields owner body')
    {ls ls' : List Text} (h : ExchangedLines u w ls ls') (hbound : Block.braces ls ≤ bound)
    (owner : Text) (taken : List Text) :
    fieldsFrom owner taken ls = fieldsFrom owner taken ls' := by
  induction hn : ls.length using Nat.strongRecOn generalizing ls ls' taken with
  | ind n ih =>
    subst hn
    cases h with
    | nil => rfl
    | @cons line line' rest rest' hl hrest =>
      have hlater : ∀ k taken, fieldsFrom owner taken (rest.drop k)
          = fieldsFrom owner taken (rest'.drop k) := by
        intro k taken
        have hdrop := Block.braces_drop_le k rest
        rw [Block.braces_cons] at hbound
        refine ih _ ?_ (List.forall₂_drop k hrest) (by omega) taken rfl
        rw [List.length_drop, List.length_cons]
        omega
      rcases cases_of_rel (hl.opening? hu hw) with ⟨ho, ho'⟩ | ⟨o, o', ho, ho', hopen⟩
      · have hleaf := hl.leaf?_eq hu hw
        cases hfound : leaf? line with
        | some found =>
          rw [hfound] at hleaf
          have hsame := fun taken => hlater 0 taken
          simp only [List.drop_zero] at hsame
          rw [fieldsFrom_leaf ho hfound, fieldsFrom_leaf ho' hleaf.symm, hsame, hsame]
        | none =>
          rw [hfound] at hleaf
          have hopening := hl.count_eq hu.opening hw.opening
          have hclosing := hl.count_eq hu.closing hw.closing
          by_cases hbraces : line.count '}' < line.count '{'
          · have hbraces' : line'.count '}' < line'.count '{' := by omega
            have hblock := (hl.after (by decide) hu.opening hw.opening).takeFrom hu hw hrest 0
            rw [fieldsFrom_skip ho hfound hbraces, fieldsFrom_skip ho' hleaf.symm hbraces', hlater]
            unfold Block.take
            rw [hblock.consumed]
          · have hbraces' : ¬ line'.count '}' < line'.count '{' := by omega
            have hsame := hlater 0 taken
            rw [List.drop_zero, List.drop_zero] at hsame
            rw [fieldsFrom_unrecognised ho hfound hbraces,
              fieldsFrom_unrecognised ho' hleaf.symm hbraces', hsame]
      · have hblock := hopen.after.takeFrom hu hw hrest 0
        have hbody : Block.braces (Block.take o.after rest).body < bound := by
          have hcount := LineShape.count_after_lt ho
          have htaken := Block.count_braces_take_le o.after rest
          rw [Block.braces_cons] at hbound
          have : Block.braces (Block.take o.after rest).body
              ≤ o.after.count '{' + Block.braces rest := htaken
          omega
        rw [fieldsFrom_opening ho, fieldsFrom_opening ho']
        unfold Block.take at hbody ⊢
        dsimp only
        rw [hopen.name_eq, hblock.consumed, hblocks hblock.body hbody, hlater, hlater]

/-- **Selection sets in which harmless contents are exchanged have the same fields**, at any
depth. -/
theorem ExchangedLines.fields_eq (hu : Harmless u) (hw : Harmless w) {ls ls' : List Text}
    (h : ExchangedLines u w ls ls') (owner : Text) : fields owner ls = fields owner ls' := by
  -- the block of a selection holds fewer braces than the lines it was found in
  induction hn : Block.braces ls using Nat.strongRecOn generalizing ls ls' owner with
  | ind n ih =>
    subst hn
    rw [← fieldsFrom_ofLines, ← fieldsFrom_ofLines]
    exact (h.ofLines hu hw).fieldsFrom_eq hu hw (fun hbody hlt => ih _ hlt hbody _ rfl)
      (LogicalLine.braces_ofLines_le ls) owner []

end

/-! ## Documents -/

/-- A live text and a selection set in it. -/
theorem ExchangedLines.selectionSet? (hu : Harmless u) (hw : Harmless w) {ls ls' : List Text}
    (h : ExchangedLines u w ls ls') :
    Option.Rel (ExchangedBlocks u w) (Document.selectionSet? ls) (Document.selectionSet? ls') := by
  induction h with
  | nil => exact .none
  | @cons l l' ls ls' hl hls ih =>
    have hmem := hl.mem_iff (by decide) hu.opening hw.opening
    rw [Document.selectionSet?, Document.selectionSet?]
    by_cases hopen : '{' ∈ l
    · rw [if_pos hopen, if_pos (hmem.1 hopen)]
      exact .some ((hl.after (by decide) hu.opening hw.opening).takeFrom hu hw hls 0)
    · rw [if_neg hopen, if_neg fun hopen' => hopen (hmem.2 hopen')]
      exact ih

theorem ExchangedLines.withoutHeader (hu : Harmless u) (hw : Harmless w) {ls ls' : List Text}
    (h : ExchangedLines u w ls ls') :
    ExchangedLines u w (Document.withoutHeader ls) (Document.withoutHeader ls') := by
  cases h with
  | nil => exact .nil
  | cons hl hls => exact .cons (hl.headerAfter hu hw) hls

theorem ExchangedLines.fieldsOf_eq (hu : Harmless u) (hw : Harmless w) {ls ls' : List Text}
    (h : ExchangedLines u w ls ls') (name : Text) :
    Document.fieldsOf name ls = Document.fieldsOf name ls' := by
  unfold Document.fieldsOf
  rcases cases_of_rel ((h.withoutHeader hu hw).selectionSet? hu hw) with
    ⟨hn, hn'⟩ | ⟨block, block', hs, hs', hblock⟩
  · rw [hn, hn']
  · rw [hs, hs']
    exact hblock.body.fields_eq hu hw name

theorem ExchangedLines.findSome?_header (hu : Harmless u) (hw : Harmless w) {ls ls' : List Text}
    (h : ExchangedLines u w ls ls') :
    ls.findSome? Header.find? = ls'.findSome? Header.find? := by
  induction h with
  | nil => rfl
  | cons hl _ ih => rw [List.findSome?_cons, List.findSome?_cons, hl.find?_eq hu hw, ih]

end Literal

/-- Two documents have the same fields, with the same selections at any depth. -/
def Document.SameFields (a b : Text) : Prop :=
  (operation? a).map Operation.fields = (operation? b).map Operation.fields

namespace Literal

variable {u w : Text}

/-- **Documents in which harmless contents are exchanged have the same fields.** -/
theorem Exchanged.sameFields (hu : Harmless u) (hw : Harmless w) {a b : Text}
    (h : Exchanged u w a b) : Document.SameFields a b := by
  have hlive := Exchanged.liveTexts hu hw (h.lineTexts hu.toIsContent hw.toIsContent) false
  unfold Document.SameFields
  rw [Document.operation?_eq_ofLive?, Document.operation?_eq_ofLive?]
  unfold Document.ofLive?
  rw [Comment.liveText, Comment.liveText, hlive.findSome?_header hu hw, Option.map_map,
    Option.map_map]
  congr 1
  funext header
  exact (Exchanged.governed hu hw hlive header.name false).fieldsOf_eq hu hw header.name

end Literal

end GqlScan
