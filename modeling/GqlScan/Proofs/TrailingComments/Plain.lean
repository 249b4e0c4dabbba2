import GqlScan.Proofs.Blocks
import GqlScan.Proofs.Readers
import GqlScan.Proofs.TrailingComments.Stripped

/-!
# Comments that say nothing to a scanner

Only the scan of a selection set cuts trailing comments; the search for headers, the scope, the
variables and the blocks read them as text. A comment is *plain* when none of these finds anything
in it. With plain comments alone, all readers find in a live line what they find in its clean form.

The block of the operation starts behind a brace in the middle of a line, and what is left of that
line is cut on its own. This is the cut of the whole line only when the brace stands outside string
literals.

Main statement: `ofLive?_map_clean`, that plain comments do not influence an operation whose
selection set opens outside literals.
-/

namespace GqlScan

open Text Comment LogicalLine

/-- A comment without header, variable and brace. -/
structure Comment.Plain (w : Text) : Prop where
  noHeader : Header.find? w = none
  noVariable : Variable.inLine w = []
  noOpening : '{' ∉ w
  noClosing : '}' ∉ w

/-- The part of a line up to the name in its header; nothing when it has none. -/
def Header.upTo (line : Text) : Text := line.take (line.length - (after line).length)

theorem Header.upTo_append_after (line : Text) : upTo line ++ after line = line :=
  List.suffix_iff_eq_append.1 (after_suffix line)

namespace Document

/-- What stands in front of the brace on the line that opens the selection set. -/
def openingFront? : List Text → Option Text
  | [] => none
  | first :: rest =>
    if '{' ∈ Header.after first then some (Header.upTo first ++ before '{' (Header.after first))
    else (rest.find? fun line => decide ('{' ∈ line)).map (before '{')

/-- The selection set of the operation in some live lines, if there is one, opens outside string
literals. -/
def OpensOutside (live : List Text) : Prop :=
  ∀ header ∈ live.findSome? Header.find?,
    ∀ front ∈ openingFront? (Scope.governed header.name false live),
      Quotation.unquoted.past front = .unquoted

instance (live : List Text) : Decidable (OpensOutside live) :=
  inferInstanceAs (Decidable (∀ header ∈ live.findSome? Header.find?,
    ∀ front ∈ openingFront? (Scope.governed header.name false live),
      Quotation.unquoted.past front = .unquoted))

end Document

/-! ## A line with a comment -/

theorem Header.locate?_append_sign (t w : Text) :
    locate? (t ++ '#' :: w)
      = match locate? t with
        | some found => some (found.1, found.2 ++ '#' :: w)
        | none => locate? w := by
  have hsign : StopsPastBlanks isNameChar ('#' :: w) := .cons (by decide) (by decide) w
  rw [locate?_append hsign]
  cases locate? t with
  | some found => rfl
  | none => exact locate?_cons_of_stops (by decide) w

theorem Header.find?_append_sign_of_none {t : Text} (h : locate? t = none) (w : Text) :
    find? (t ++ '#' :: w) = find? w := by
  unfold find?
  rw [locate?_append_sign, h]

theorem Variable.inLine_append_sign {t : Text} (h : '$' ∉ t) (w : Text) :
    inLine (t ++ '#' :: w) = inLine w := by
  rw [inLine_append_of_no_dollar h, inLine_cons_of_ne (by decide)]

/-! ## What the readers see in a plain comment -/

/-- What can follow the clean form of a line: nothing, or blanks and a plain comment. -/
inductive Remark : Text → Prop where
  | nothing : Remark []
  | comment {b w : Text} : Blanks b → Plain w → Remark (b ++ '#' :: w)

namespace Remark

variable {v : Text}

theorem trimStart_comment {b : Text} (hb : Blanks b) (w : Text) :
    trimStart (b ++ '#' :: w) = '#' :: w := by
  have hsign : isBlank '#' = false := by decide
  rw [trimStart_blanks_append hb, trimStart_of_stops (.cons hsign w)]

theorem stopsPastBlanks (hv : Remark v) {p : Char → Bool} (hp : p '#' = false) :
    StopsPastBlanks p v := by
  unfold StopsPastBlanks
  cases hv with
  | nothing => exact .nil p
  | @comment b w hb _ =>
    rw [trimStart_comment hb]
    exact .cons hp w

theorem ends (hv : Remark v) : Variable.Ends v := by
  refine ⟨hv.stopsPastBlanks (by decide), ?_⟩
  cases hv with
  | nothing => decide
  | @comment b w hb _ =>
    rw [trimStart_comment hb, List.head?_cons]
    decide

theorem locate?_eq_none (hv : Remark v) : Header.locate? v = none := by
  cases hv with
  | nothing => rfl
  | @comment b w hb hw =>
    have hblanks : Header.locate? b = none := by
      refine Header.locate?_eq_none_of_no_letter fun c hc => ?_
      cases hn : isNameChar c with
      | false => rfl
      | true => exact absurd hc (hb.not_mem (isBlank_eq_false_of_isNameChar hn))
    rw [Header.locate?_append_sign, hblanks]
    exact Option.map_eq_none_iff.1 hw.noHeader

theorem inLine_eq_nil (hv : Remark v) : Variable.inLine v = [] := by
  cases hv with
  | nothing => exact Variable.inLine_eq_nil (by decide)
  | @comment b w hb hw =>
    rw [Variable.inLine_append_sign (hb.not_mem (by decide))]
    exact hw.noVariable

/-- A character that is neither a blank nor the sign stands in the comment or not at all. -/
theorem not_mem (hv : Remark v) {c : Char} (hblank : isBlank c = false) (hsign : c ≠ '#')
    (hplain : ∀ w, Plain w → c ∉ w) : c ∉ v := by
  cases hv with
  | nothing => exact List.not_mem_nil
  | @comment b w hb hw =>
    intro hm
    rcases List.mem_append.1 hm with h | h
    · exact hb.not_mem hblank h
    · rcases List.mem_cons.1 h with h | h
      · exact hsign h
      · exact hplain w hw h

theorem no_brace (hv : Remark v) : '{' ∉ v ∧ '}' ∉ v :=
  ⟨hv.not_mem (by decide) (by decide) fun _ hw => hw.noOpening,
    hv.not_mem (by decide) (by decide) fun _ hw => hw.noClosing⟩

/-! ## A line with a remark -/

theorem find?_append (hv : Remark v) (t : Text) : Header.find? (t ++ v) = Header.find? t := by
  unfold Header.find?
  rw [Header.locate?_append (hv.stopsPastBlanks (by decide))]
  cases Header.locate? t with
  | none => rw [hv.locate?_eq_none]
  | some found => rfl

theorem after_append (hv : Remark v) (t : Text) : Header.after (t ++ v) = Header.after t ++ v := by
  unfold Header.after
  rw [Header.locate?_append (hv.stopsPastBlanks (by decide))]
  cases Header.locate? t with
  | none => rw [hv.locate?_eq_none]
  | some found => rfl

theorem inLine_append (hv : Remark v) (t : Text) :
    Variable.inLine (t ++ v) = Variable.inLine t := by
  rw [Variable.inLine_append hv.ends, hv.inLine_eq_nil, List.append_nil]

theorem mem_append_iff (hv : Remark v) (t : Text) : '{' ∈ t ++ v ↔ '{' ∈ t := by
  rw [List.mem_append]
  exact ⟨fun h => h.resolve_right hv.no_brace.1, Or.inl⟩

theorem run_append (hv : Remark v) {k j : Nat} {t : Text} (h : Block.run k t = .stays j) :
    Block.run k (t ++ v) = .stays j := by
  rw [Block.run_append_of_stays h, Block.run_of_no_braces hv.no_brace.1 hv.no_brace.2]
  rfl

end Remark

/-- A trimmed line whose trailing comment, if it has one, is plain. -/
structure PlainLine (l : Text) : Prop where
  stops : Stops isBlank l
  solid : Solid l
  plain : ∀ w ∈ trailing? l, Plain w

namespace PlainLine

variable {l : Text}

/-- A line is its clean form and a remark. -/
theorem exists_remark (hl : PlainLine l) : ∃ v, l = clean l ++ v ∧ Remark v := by
  rcases eq_clean_or_comment hl.stops hl.solid with h | ⟨b, w, hw, hb, happ⟩
  · exact ⟨[], by rw [List.append_nil, h], .nothing⟩
  · exact ⟨b ++ '#' :: w, happ, .comment hb (hl.plain w hw)⟩

theorem find?_clean (hl : PlainLine l) : Header.find? (clean l) = Header.find? l := by
  obtain ⟨v, hlv, hv⟩ := hl.exists_remark
  conv => rhs; rw [hlv]
  exact (hv.find?_append _).symm

theorem inLine_clean (hl : PlainLine l) : Variable.inLine (clean l) = Variable.inLine l := by
  obtain ⟨v, hlv, hv⟩ := hl.exists_remark
  conv => rhs; rw [hlv]
  exact (hv.inLine_append _).symm

/-- The rest of a line behind a place outside literals is cut as it is in the whole line. -/
theorem clean_rest (hl : PlainLine l) (front : Text) {tail v : Text}
    (hclean : clean l = front ++ tail) (hlv : l = clean l ++ v)
    (hq : Quotation.unquoted.past front = .unquoted) :
    clean (tail ++ v) = clean tail := by
  cases h : trailing? l with
  | none =>
    rw [clean_eq_self hl.stops hl.solid h, List.self_eq_append_right] at hlv
    rw [hlv, List.append_nil]
  | some w =>
    obtain ⟨b, hb, hblanks⟩ := cut_eq_clean_append hl.stops
    have happ : l = cut l ++ '#' :: w := (cutFrom_spec h).1
    have hv : v = b ++ '#' :: w := by
      rw [hb, List.append_assoc] at happ
      exact List.append_cancel_left (hlv.symm.trans happ)
    -- the state behind the front is the one that the rest starts with, so both cuts agree
    have hcut : cut l = front ++ (tail ++ b) := by rw [hb, hclean, List.append_assoc]
    have hnone : trailing? (front ++ (tail ++ b)) = none := hcut ▸ (cutFrom_spec h).2.1
    have hover : Quotation.unquoted.past (front ++ (tail ++ b)) = .unquoted :=
      hcut ▸ (cutFrom_spec h).2.2
    have hfront : trailing? front = none := trailing?_of_isPrefix (List.prefix_append _ _) hnone
    unfold trailing? at hnone hfront
    rw [trailingFrom?_append_of_none hfront, hq] at hnone
    rw [Quotation.past_append, hq] at hover
    rw [hv]
    exact clean_append_comment hblanks hnone hover w

end PlainLine

/-! ## Blocks -/

theorem past_brace {front : Text} (h : Quotation.unquoted.past front = .unquoted) :
    Quotation.unquoted.past (front ++ ['{']) = .unquoted := by
  rw [Quotation.past_append, h]
  rfl

/-- The bodies of a block among clean lines and among the lines themselves are equally clean. -/
theorem map_clean_takeFrom {k : Nat} {t v : Text} (hv : Remark v) (ht : clean (t ++ v) = clean t)
    {rest : List Text} (hrest : ∀ l ∈ rest, PlainLine l) :
    (Block.takeFrom k t (rest.map clean)).body.map clean
      = (Block.takeFrom k (t ++ v) rest).body.map clean := by
  -- the first line comes with a remark of its own, for a block starts in the middle of a line
  induction rest generalizing k t v with
  | nil =>
    cases hr : Block.run k t with
    | closes before =>
      rw [Block.takeFrom_closes hr, Block.takeFrom_closes (Block.run_append_of_closes hr v)]
    | stays j =>
      rw [List.map_nil, Block.takeFrom_nil hr, Block.takeFrom_nil (hv.run_append hr),
        List.map_singleton, List.map_singleton, ht]
  | cons l rest ih =>
    have hl := hrest l List.mem_cons_self
    cases hr : Block.run k t with
    | closes before =>
      rw [Block.takeFrom_closes hr, Block.takeFrom_closes (Block.run_append_of_closes hr v)]
    | stays j =>
      obtain ⟨u, hlu, hu⟩ := hl.exists_remark
      have hlu' : clean (clean l ++ u) = clean (clean l) := by rw [← hlu, clean_clean]
      have hbody := @ih j (clean l) u hu hlu' fun m hm => hrest m (List.mem_cons_of_mem l hm)
      rw [← hlu] at hbody
      rw [List.map_cons, Block.takeFrom_cons hr, Block.takeFrom_cons (hv.run_append hr)]
      unfold Block.behind
      rw [List.map_append, List.map_append, List.map_singleton, List.map_singleton, ht, hbody]

namespace Document

/-- The body of the selection set in some lines, with its lines clean. -/
def cleanBody? (lines : List Text) : Option (List Text) :=
  (selectionSet? lines).map fun block => block.body.map clean

theorem fields_congr {owner : Text} {xs ys : List Text} (h : xs.map clean = ys.map clean) :
    Selection.fields owner xs = Selection.fields owner ys := by
  rw [Selection.fields_eq, Selection.fields_eq]
  unfold Selection.itemsOf ofLines groups
  rw [h]

theorem fieldsOf_congr {name : Text} {xs ys : List Text}
    (h : cleanBody? (withoutHeader xs) = cleanBody? (withoutHeader ys)) :
    fieldsOf name xs = fieldsOf name ys := by
  unfold cleanBody? at h
  unfold fieldsOf
  cases hx : selectionSet? (withoutHeader xs) with
  | none =>
    cases hy : selectionSet? (withoutHeader ys) with
    | none => rfl
    | some b =>
      rw [hx, hy] at h
      cases h
  | some a =>
    cases hy : selectionSet? (withoutHeader ys) with
    | none =>
      rw [hx, hy] at h
      cases h
    | some b =>
      rw [hx, hy] at h
      exact fields_congr (Option.some.inj h)

/-- The line that opens the selection set, in its clean form and as it is. -/
theorem cleanBody?_cons_of_mem {t v : Text} (hv : Remark v) (hmem : '{' ∈ t)
    (ht : clean (Text.after '{' t ++ v) = clean (Text.after '{' t)) {rest : List Text}
    (hrest : ∀ l ∈ rest, PlainLine l) :
    cleanBody? (t :: rest.map clean) = cleanBody? ((t ++ v) :: rest) := by
  unfold cleanBody?
  rw [selectionSet?, selectionSet?, if_pos hmem, if_pos ((hv.mem_append_iff t).2 hmem),
    after_append_of_mem hmem]
  exact congrArg some (map_clean_takeFrom hv ht hrest)

theorem cleanBody?_cons_of_not_mem {t : Text} (h : '{' ∉ t) (rest : List Text) :
    cleanBody? (t :: rest) = cleanBody? rest := by
  unfold cleanBody?
  rw [selectionSet?, if_neg h]

/-- What is left of a line behind its brace is equally clean with and without the comment. -/
theorem clean_after_brace {l tail v : Text} (hl : PlainLine l) (front : Text)
    (hclean : clean l = front ++ tail) (hlv : l = clean l ++ v) (hmem : '{' ∈ tail)
    (hq : Quotation.unquoted.past (front ++ before '{' tail) = .unquoted) :
    clean (Text.after '{' tail ++ v) = clean (Text.after '{' tail) := by
  refine hl.clean_rest (front ++ before '{' tail ++ ['{']) ?_ hlv (past_brace hq)
  rw [hclean, List.append_assoc, List.append_assoc]
  exact congrArg (front ++ ·) (before_append_after hmem).symm

theorem cleanBody?_map_clean {rest : List Text} (hrest : ∀ l ∈ rest, PlainLine l)
    (hopen : ∀ l ∈ (rest.map clean).find? fun line => decide ('{' ∈ line),
      Quotation.unquoted.past (before '{' l) = .unquoted) :
    cleanBody? (rest.map clean) = cleanBody? rest := by
  induction rest with
  | nil => rfl
  | cons l rest ih =>
    have hl := hrest l List.mem_cons_self
    have hlater : ∀ m ∈ rest, PlainLine m := fun m hm => hrest m (List.mem_cons_of_mem l hm)
    obtain ⟨v, hlv, hv⟩ := hl.exists_remark
    rw [List.map_cons] at hopen ⊢
    by_cases hmem : '{' ∈ clean l
    · rw [List.find?_cons, decide_eq_true hmem] at hopen
      have hrest' := clean_after_brace hl [] rfl hlv hmem (hopen _ rfl)
      have := cleanBody?_cons_of_mem hv hmem hrest' hlater
      rwa [← hlv] at this
    · have hmem' : '{' ∉ l := by
        rw [hlv]
        exact fun h => hmem ((hv.mem_append_iff _).1 h)
      rw [List.find?_cons, decide_eq_false hmem] at hopen
      rw [cleanBody?_cons_of_not_mem hmem, cleanBody?_cons_of_not_mem hmem', ih hlater hopen]

/-- Plain comments do not change the fields of an operation. -/
theorem fieldsOf_map_clean (name : Text) {lines : List Text} (hlines : ∀ l ∈ lines, PlainLine l)
    (hopen : ∀ front ∈ openingFront? (lines.map clean),
      Quotation.unquoted.past front = .unquoted) :
    fieldsOf name (lines.map clean) = fieldsOf name lines := by
  apply fieldsOf_congr
  cases lines with
  | nil => rfl
  | cons first rest =>
    have hfirst := hlines first List.mem_cons_self
    have hrest : ∀ l ∈ rest, PlainLine l := fun l hl => hlines l (List.mem_cons_of_mem first hl)
    obtain ⟨v, hlv, hv⟩ := hfirst.exists_remark
    have hafter : Header.after first = Header.after (clean first) ++ v := by
      conv => lhs; rw [hlv]
      exact hv.after_append _
    rw [List.map_cons, withoutHeader, withoutHeader, hafter]
    rw [List.map_cons, openingFront?] at hopen
    -- the brace stands behind the header, or on the first later line that has one
    by_cases hmem : '{' ∈ Header.after (clean first)
    · rw [if_pos hmem] at hopen
      refine cleanBody?_cons_of_mem hv hmem ?_ hrest
      exact clean_after_brace hfirst _ (Header.upTo_append_after _).symm hlv hmem (hopen _ rfl)
    · have hmem' : '{' ∉ Header.after (clean first) ++ v :=
        fun h => hmem ((hv.mem_append_iff _).1 h)
      rw [if_neg hmem] at hopen
      rw [cleanBody?_cons_of_not_mem hmem, cleanBody?_cons_of_not_mem hmem']
      refine cleanBody?_map_clean hrest fun l hl => hopen _ ?_
      rw [Option.mem_def.1 hl]
      rfl

end Document

/-! ## The operation -/

theorem Scope.governed_sublist (target : Text) (inside : Bool) (live : List Text) :
    (governed target inside live).Sublist live := by
  induction live generalizing inside with
  | nil => exact List.Sublist.refl _
  | cons l live ih =>
    rw [governed_cons]
    split
    · exact (ih true).cons_cons l
    · exact (ih false).cons l

theorem Scope.governed_map_clean {live : List Text} (hlive : ∀ l ∈ live, PlainLine l)
    (target : Text) (inside : Bool) :
    governed target inside (live.map clean) = (governed target inside live).map clean := by
  induction live generalizing inside with
  | nil => rfl
  | cons l live ih =>
    have hrest : ∀ m ∈ live, PlainLine m := fun m hm => hlive m (List.mem_cons_of_mem l hm)
    have hopens : opens target inside (clean l) = opens target inside l := by
      unfold opens
      rw [(hlive l List.mem_cons_self).find?_clean]
    rw [List.map_cons, governed_cons, governed_cons, hopens, ih hrest, ih hrest]
    split <;> rfl

theorem Header.findSome?_map_clean {live : List Text} (hlive : ∀ l ∈ live, PlainLine l) :
    (live.map clean).findSome? Header.find? = live.findSome? Header.find? := by
  induction live with
  | nil => rfl
  | cons l live ih =>
    have hl := hlive l List.mem_cons_self
    rw [List.map_cons, List.findSome?_cons, List.findSome?_cons, hl.find?_clean,
      ih fun m hm => hlive m (List.mem_cons_of_mem l hm)]

namespace Document

/-- **Plain comments do not influence an operation** whose selection set opens outside literals. -/
theorem ofLive?_map_clean {live : List Text} (hlive : ∀ l ∈ live, PlainLine l)
    (hopen : OpensOutside (live.map clean)) : ofLive? (live.map clean) = ofLive? live := by
  unfold OpensOutside at hopen
  unfold ofLive?
  rw [Header.findSome?_map_clean hlive] at hopen ⊢
  cases hh : live.findSome? Header.find? with
  | none => rfl
  | some header =>
    have hgoverned := Scope.governed_map_clean hlive header.name false
    have hlines : ∀ l ∈ Scope.governed header.name false live, PlainLine l :=
      fun l hl => hlive l ((Scope.governed_sublist _ _ _).subset hl)
    have hvariables : Variable.inLines ((Scope.governed header.name false live).map clean)
        = Variable.inLines (Scope.governed header.name false live) := by
      unfold Variable.inLines
      rw [List.flatMap_map]
      congr 1
      exact List.flatMap_congr fun l hl => (hlines l hl).inLine_clean
    have hfields := fieldsOf_map_clean header.name hlines (by
      rw [← hgoverned]
      exact hopen header hh)
    rw [Option.map_some, Option.map_some, hgoverned]
    unfold operationOf
    rw [hvariables, hfields]

end Document

end GqlScan
